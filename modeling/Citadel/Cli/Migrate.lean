import Citadel.Keystore.Migration
import Citadel.Keystore.Growth
import Citadel.Keystore.Rewrapping

/-!
# `citadel migrate hierarchy`

The command plans a migration from a listing of the store, creates the keys of the
hierarchy that are missing and wraps the current version of every flat data key under
the key-encrypting key. It counts what fails and reports an error if anything did.

A rewrap changes how a version is wrapped and never the parent of its key, and domains
are found through parents: a data key that had no parent has none after the migration.
-/

namespace Citadel.Cli

open Envelope Program Keystore

/-- The clock and the environment of one call of the command. -/
structure Moment where
  now : Nat
  env : Env

/-- A listing of the store, empty if it fails (`unwrap_or_default`). -/
def listOrDefault (env : Env) (world : World) : List KeyMetadata :=
  match faulty env.listFault (env.order world.keys.entries) with
  | .ok keys => keys
  | .error _ => []

/-- The arguments of the command. -/
structure HierarchyArgs where
  dryRun : Bool
  execute : Bool
  rootName : String
  domainName : String
  kekName : String
  deriving DecidableEq, Repr

/-- The options the command plans with. -/
def HierarchyArgs.opts (args : HierarchyArgs) : MigrationOptions :=
  ⟨args.rootName, args.domainName, args.kekName, true, true⟩

/-- The progress of an execution: the state of the store, how many calls were made, the
identifiers by name and the errors so far. -/
structure Execution where
  world : World
  calls : Nat
  createdIds : String → Option KeyId
  errors : Nat

/-- The type that a text of the plan names. -/
def keyTypeOf (text : String) : KeyType :=
  if text = "Root" then .root
  else if text = "Domain" then .domain
  else if text = "KeyEncrypting" then .keyEncrypting
  else .dataEncrypting

/-- The hierarchy keys that the store already has, by name; a later one takes the place
of an earlier one with its name. -/
def existingIds (keys : List KeyMetadata) (opts : MigrationOptions) : String → Option KeyId :=
  [(opts.rootName, KeyType.root), (opts.domainName, .domain), (opts.kekName, .keyEncrypting)].foldl
    (fun ids (name, keyType) =>
      match keys.find? (isNamed keyType name) with
      | some key => Function.update ids name (some key.id)
      | none => ids)
    fun _ => none

section Command

variable (ks : Keystore) (during : Nat → Moment)

namespace Execution

/-- One call of the keystore. -/
def request (state : Execution) (call : Call) : Outcome CallError CallValue × Execution :=
  let moment := during state.calls
  let played := (Step.mk moment.now moment.env call).run ks state.world
  (played.1, { state with world := played.2, calls := state.calls + 1 })

/-- One round of the loop that creates keys. -/
def create (state : Execution) (spec : KeyToCreate) : Execution :=
  let parent := spec.parentName.bind state.createdIds
  match state.request ks during (.generate spec.name (keyTypeOf spec.keyType) none parent) with
  | (.ok (.key id), generated) =>
      match generated.request ks during (.activate id) with
      | (.ok _, activated) =>
          { activated with createdIds := Function.update activated.createdIds spec.name (some id) }
      | (_, failed) => { failed with errors := failed.errors + 1 }
  | (_, failed) => { failed with errors := failed.errors + 1 }

/-- One round of the loop that wraps data keys anew. -/
def rewrap (kekId : Option KeyId) (state : Execution) (spec : KeyToRewrap) : Execution :=
  match kekId with
  | none => { state with errors := state.errors + 1 }
  | some kek =>
      match state.request ks during (.rewrap ⟨spec.keyId⟩ (some kek)) with
      | (.ok _, rewrapped) => rewrapped
      | (_, failed) => { failed with errors := failed.errors + 1 }

end Execution

/-- The loop that creates keys. The first two moments are those of the listings. -/
def createAll (opts : MigrationOptions) (plan : MigrationPlan) (world : World) : Execution :=
  plan.keysToCreate.foldl (Execution.create ks during)
    ⟨world, 2, existingIds (listOrDefault (during 1).env world) opts, 0⟩

/-- What the command does with a plan. -/
def executePlan (opts : MigrationOptions) (plan : MigrationPlan) (world : World) : Execution :=
  let created := createAll ks during opts plan world
  plan.keysToRewrap.foldl (Execution.rewrap ks during (created.createdIds opts.kekName)) created

/-- The plan of the command. -/
def planFor (args : HierarchyArgs) (world : World) : MigrationPlan :=
  planMigration (listOrDefault (during 0).env world) args.opts (during 0).now

/-- `cmd_hierarchy`: the exit code and the store it leaves. `opened` tells whether the
storage directory could be opened. -/
def cmdHierarchy (opened : Bool) (args : HierarchyArgs) (world : World) : Nat × World :=
  if args.dryRun = false ∧ args.execute = false then (1, world)
  else if opened = false then (1, world)
  else if args.dryRun then (0, world)
  else if (planFor during args world).isEmpty then (0, world)
  else
    let done := executePlan ks during args.opts (planFor during args world) world
    (if 0 < done.errors then 1 else 0, done.world)

end Command

/-! ### What single calls leave -/

section Calls

variable {ks : Keystore} {during : Nat → Moment} {state : Execution} {env : Env}
  {world after : World}

theorem generated_of_run {name : String} {keyType : KeyType} {policyId : Option PolicyId}
    {parentId : Option KeyId} {id : KeyId}
    (ran : (ks.generate name keyType policyId parentId).run (handle env) world = (.ok id, after)) :
    id = .generate env.randomness.keyId ∧ ∃ version, after =
      { world with
        keys := world.keys.insert
          (newRecord id name keyType policyId parentId world.now version) } := by
  have neutral : ∀ op, Op.Reads op → ∀ world, (handle env op world).2 = world :=
    fun op reads => handle_of_reads reads
  obtain ⟨-, rest⟩ := of_run_guard_eq_ok (of_run_mapErr_eq_ok ran)
  obtain ⟨⟨⟩, -, rest⟩ := requireMasterKey_reads.of_run_bind_eq_ok neutral rest
  obtain ⟨⟨⟩, -, rest⟩ := (checkHierarchy_reads _ _).of_run_bind_eq_ok neutral rest
  simp only [createKey, osRng, utcNow, call_bind, run_perform] at rest
  obtain ⟨wrapped, -, rest⟩ :=
    (wrapSecretKeyFor_reads _ _ _ _).mapErr.of_run_bind_eq_ok neutral rest
  have stored := of_put_bind_eq_ok rest
  cases stored
  exact ⟨rfl, _, rfl⟩

theorem activated_of_run {id : KeyId}
    (ran : (activate id).run (handle env) world = (.ok (), after)) :
    ∃ before, world.keys.find? id = some before ∧ after =
      { world with keys := world.keys.insert (activatedRecord before world.now world.now) } := by
  have neutral : ∀ op, Op.Reads op → ∀ world, (handle env op world).2 = world :=
    fun op reads => handle_of_reads reads
  obtain ⟨before, got, rest⟩ :=
    (get_reads id).of_run_bind_eq_ok neutral (of_run_mapErr_eq_ok ran)
  obtain ⟨moved, transitioned, rest⟩ := (transition_reads _ _).of_run_bind_eq_ok neutral rest
  rw [utcNow, call_bind, run_perform] at rest
  cases of_put_eq_ok rest
  refine ⟨before, find?_of_get got, ?_⟩
  rw [transition] at transitioned
  split at transitioned
  · cases transitioned
    rfl
  · cases transitioned

/-- A call that was answered, with the counters it leaves. -/
structure Answered (state next : Execution) (keys : Keys) : Prop where
  keys : next.world.keys = keys
  calls : next.calls = state.calls + 1
  createdIds : next.createdIds = state.createdIds
  errors : next.errors = state.errors

theorem request_eq {call : Call} {value : CallValue} {next : Execution}
    (asked : state.request ks during call = (.ok value, next)) :
    ∃ later : World, (call.prog ks (state.world.keys.entries.length + 1)).run
        (handle (during state.calls).env) { state.world with now := (during state.calls).now } =
          (.ok value, later) ∧ Answered state next later.keys := by
  rw [Execution.request, Prod.mk.injEq] at asked
  obtain ⟨answered, rfl⟩ := asked
  exact ⟨_, Prod.ext answered rfl, rfl, rfl, rfl, rfl⟩

theorem generate_answered {name : String} {keyType : KeyType} {parentId : Option KeyId} {id : KeyId}
    {next : Execution}
    (asked : state.request ks during (.generate name keyType none parentId) = (.ok (.key id), next)) :
    id = .generate (during state.calls).env.randomness.keyId ∧ ∃ now version,
      Answered state next
        (state.world.keys.insert (newRecord id name keyType none parentId now version)) := by
  obtain ⟨later, ran, answered⟩ := request_eq asked
  obtain ⟨made, middle, generated, returned⟩ := of_run_bind_eq_ok ran
  cases returned
  obtain ⟨named, version, rfl⟩ := generated_of_run generated
  exact ⟨named, _, version, answered⟩

theorem activate_answered {id : KeyId} {value : CallValue} {next : Execution}
    (asked : state.request ks during (.activate id) = (.ok value, next)) :
    ∃ before now, state.world.keys.find? id = some before ∧
      Answered state next (state.world.keys.insert (activatedRecord before now now)) := by
  obtain ⟨later, ran, answered⟩ := request_eq asked
  obtain ⟨⟨⟩, middle, activated, returned⟩ := of_run_bind_eq_ok ran
  cases returned
  obtain ⟨before, found, rfl⟩ := activated_of_run activated
  exact ⟨before, _, found, answered⟩

theorem rewrap_answered {id : KeyId} {newParentId : Option KeyId} {value : CallValue}
    {next : Execution}
    (asked : state.request ks during (.rewrap id newParentId) = (.ok value, next)) :
    ∃ before now wrapped, state.world.keys.find? id = some before ∧
      Answered state next (state.world.keys.insert (rewrappedRecord before now wrapped)) := by
  obtain ⟨later, ran, answered⟩ := request_eq asked
  obtain ⟨⟨⟩, middle, rewrapped, returned⟩ := of_run_bind_eq_ok ran
  cases returned
  obtain ⟨version, secret, did⟩ := rewraps_of_run rewrapped
  cases did with
  | intro found current unwraps wraps => exact ⟨_, _, _, found, answered⟩

/-! ### A round without errors -/

/-- What a round of the first loop leaves that meets no error: one new key, active. -/
structure Created (state : Execution) (spec : KeyToCreate) (id : KeyId) (record : KeyMetadata)
    (next : Execution) : Prop where
  clean : state.errors = 0
  calls : next.calls = state.calls + 2
  createdIds : next.createdIds = Function.update state.createdIds spec.name (some id)
  name : record.name = spec.name
  keyType : record.keyType = keyTypeOf spec.keyType
  active : record.state = .active
  keys : ∀ other, next.world.keys.find? other =
    if other = id then some record else state.world.keys.find? other

theorem created_of_clean {spec : KeyToCreate} (clean : (state.create ks during spec).errors = 0) :
    ∃ record, Created state spec (.generate (during state.calls).env.randomness.keyId) record
      (state.create ks during spec) := by
  simp only [Execution.create] at clean ⊢
  split at clean
  · rename_i id generated made
    split at clean
    · rename_i value activated moved
      obtain ⟨named, created, version, first⟩ := generate_answered made
      obtain ⟨before, now, found, second⟩ := activate_answered moved
      have own : ∀ now, (activatedRecord before now now).id = id := by
        intro now
        exact (Table.key_of_find? found : before.id = id)
      have stored : before = newRecord id spec.name (keyTypeOf spec.keyType) none
          (spec.parentName.bind state.createdIds) created version := by
        rw [first.keys] at found
        exact (Option.some.inj ((Table.find?_insert_self _ _).symm.trans found)).symm
      refine ⟨activatedRecord before now now, ?_, ?_, ?_, ?_, ?_, rfl, ?_⟩
      · rw [← first.errors, ← second.errors]
        exact clean
      · rw [second.calls, first.calls]
      · rw [second.createdIds, first.createdIds, named]
      · rw [stored]
        rfl
      · rw [stored]
        rfl
      · intro other
        rw [second.keys, first.keys, ← named]
        rw [Table.find?_insert, Table.find?_insert, own now]
        split
        · rfl
        · rename_i different
          exact if_neg different
    · cases clean
  · cases clean

theorem rewrapped_of_clean {kekId : Option KeyId} {spec : KeyToRewrap}
    (clean : (state.rewrap ks during kekId spec).errors = 0) :
    state.errors = 0 ∧
      KeepsPlaces state.world.keys (state.rewrap ks during kekId spec).world.keys := by
  cases kekId with
  | none => cases clean
  | some kek =>
      simp only [Execution.rewrap] at clean ⊢
      split at clean
      · rename_i value rewrapped done
        obtain ⟨before, now, wrapped, found, answered⟩ := rewrap_answered done
        have own : before.id = ⟨spec.keyId⟩ := Table.key_of_find? found
        have present : state.world.keys.find? (rewrappedRecord before now wrapped).id = some before :=
          (congrArg state.world.keys.find? own).trans found
        constructor
        · rw [← answered.errors]
          exact clean
        · rw [answered.keys]
          exact KeepsPlaces.insert present rfl rfl
      · cases clean

end Calls

/-! ### The loops -/

section Loops

variable {ks : Keystore} {during : Nat → Moment} {state : Execution} {start : Keys}

/-- The identifier drawn at a call. -/
def drawn (during : Nat → Moment) (call : Nat) : KeyId :=
  .generate (during call).env.randomness.keyId

/-- The calls up to the end of the first loop: two listings, and two calls for each of at
most three keys. Later calls draw no identifiers. -/
def creationCalls : Nat := 8

/-- The identifiers drawn in the course of the command are not in use and differ. -/
structure FreshIds (during : Nat → Moment) (keys : Keys) : Prop where
  unused : ∀ call < creationCalls, keys.find? (drawn during call) = none
  distinct : ∀ first < creationCalls, ∀ second < creationCalls,
    drawn during first = drawn during second → first = second

/-- The store has what it had and new keys that are not data keys. -/
structure Grown (during : Nat → Moment) (start : Keys) (state : Execution) : Prop where
  kept : ∀ id record, start.find? id = some record → state.world.keys.find? id = some record
  added : ∀ id record, state.world.keys.find? id = some record → start.find? id = some record ∨
    (record.keyType ≠ .dataEncrypting ∧ ∃ call, call < state.calls ∧ id = drawn during call)

theorem Grown.absent (fresh : FreshIds during start) (grown : Grown during start state)
    (early : state.calls < creationCalls) :
    state.world.keys.find? (drawn during state.calls) = none := by
  cases found : state.world.keys.find? (drawn during state.calls) with
  | none => rfl
  | some record =>
      rcases grown.added _ record found with old | ⟨-, call, earlier, same⟩
      · rw [fresh.unused _ early] at old
        cases old
      · have := fresh.distinct _ early _ (earlier.trans early) same
        omega

/-- A round of the first loop adds its key and keeps the others. -/
theorem Created.grown {spec : KeyToCreate} {record : KeyMetadata} {next : Execution}
    (created : Created state spec (drawn during state.calls) record next)
    (fresh : FreshIds during start) (grown : Grown during start state)
    (early : state.calls < creationCalls) (above : keyTypeOf spec.keyType ≠ .dataEncrypting) :
    Grown during start next ∧
      ∀ id record, state.world.keys.find? id = some record →
        next.world.keys.find? id = some record := by
  have keeps : ∀ id record, state.world.keys.find? id = some record →
      next.world.keys.find? id = some record := by
    intro id record found
    have different : id ≠ drawn during state.calls := by
      rintro rfl
      rw [grown.absent fresh early] at found
      cases found
    rw [created.keys, if_neg different, found]
  refine ⟨⟨fun id record found => keeps id record (grown.kept id record found), ?_⟩, keeps⟩
  intro id other found
  rw [created.keys] at found
  split at found
  · rename_i same
    cases found
    refine .inr ⟨?_, state.calls, ?_, same⟩
    · rw [created.keyType]
      exact above
    · rw [created.calls]
      omega
  · rcases grown.added id other found with old | ⟨notData, call, earlier, same⟩
    · exact .inl old
    · refine .inr ⟨notData, call, ?_, same⟩
      rw [created.calls]
      omega

/-- Errors are never taken back. -/
theorem clean_of_foldl_create {specs : List KeyToCreate}
    (clean : (specs.foldl (Execution.create ks during) state).errors = 0) : state.errors = 0 := by
  induction specs generalizing state with
  | nil => exact clean
  | cons spec rest ih =>
      obtain ⟨record, created⟩ := created_of_clean (ih clean)
      exact created.clean

/-- The first loop, when it meets no error. -/
theorem foldl_create {specs : List KeyToCreate} (fresh : FreshIds during start)
    (grown : Grown during start state) (few : state.calls + 2 * specs.length ≤ creationCalls)
    (above : ∀ spec ∈ specs, keyTypeOf spec.keyType ≠ .dataEncrypting)
    (clean : (specs.foldl (Execution.create ks during) state).errors = 0) :
    Grown during start (specs.foldl (Execution.create ks during) state) ∧
      (∀ id record, state.world.keys.find? id = some record →
        (specs.foldl (Execution.create ks during) state).world.keys.find? id = some record) ∧
      ∀ spec ∈ specs, ∃ id record,
        (specs.foldl (Execution.create ks during) state).world.keys.find? id = some record ∧
          isNamed (keyTypeOf spec.keyType) spec.name record = true := by
  induction specs generalizing state with
  | nil => exact ⟨grown, fun _ _ found => found, by simp⟩
  | cons spec rest ih =>
      obtain ⟨record, created⟩ := created_of_clean (clean_of_foldl_create clean)
      rw [List.length_cons] at few
      have early : state.calls < creationCalls := by omega
      obtain ⟨next, keeps⟩ := created.grown fresh grown early (above spec (List.mem_cons_self ..))
      have fewer : (state.create ks during spec).calls + 2 * rest.length ≤ creationCalls := by
        rw [created.calls]
        omega
      obtain ⟨final, kept, made⟩ :=
        ih next fewer (fun later member => above later (List.mem_cons_of_mem _ member)) clean
      refine ⟨final, fun id other found => kept id other (keeps id other found), ?_⟩
      intro wanted member
      rcases List.mem_cons.mp member with rfl | later
      · have stored : (state.create ks during wanted).world.keys.find? (drawn during state.calls) =
            some record := (created.keys _).trans (if_pos rfl)
        refine ⟨_, record, kept _ record stored, ?_⟩
        simp [isNamed, created.keyType, created.active, created.name]
      · exact made wanted later

theorem KeepsPlaces.trans {first second third : Keys} (left : KeepsPlaces first second)
    (right : KeepsPlaces second third) : KeepsPlaces first third := by
  intro id record found
  obtain ⟨middle, present, sameType, sameParent⟩ := left id record found
  obtain ⟨last, there, lastType, lastParent⟩ := right id middle present
  exact ⟨last, there, lastType.trans sameType, lastParent.trans sameParent⟩

/-- The second loop, when it meets no error. -/
theorem foldl_rewrap {kekId : Option KeyId} {specs : List KeyToRewrap}
    (clean : (specs.foldl (Execution.rewrap ks during kekId) state).errors = 0) :
    state.errors = 0 ∧ KeepsPlaces state.world.keys
      (specs.foldl (Execution.rewrap ks during kekId) state).world.keys := by
  induction specs generalizing state with
  | nil => exact ⟨clean, fun id record found => ⟨record, found, rfl, rfl⟩⟩
  | cons spec rest ih =>
      obtain ⟨next, later⟩ := ih clean
      obtain ⟨before, kept⟩ := rewrapped_of_clean next
      exact ⟨before, KeepsPlaces.trans kept later⟩

end Loops

/-! ### The listing and the plan -/

section Listing

variable {env : Env} {world : World} {key : KeyMetadata} {opts : MigrationOptions}

/-- What is listed is stored. -/
theorem find?_of_mem_listOrDefault (member : key ∈ listOrDefault env world) :
    world.keys.find? key.id = some key := by
  cases failed : env.listFault with
  | some problem => simp [listOrDefault, failed, faulty] at member
  | none =>
      simp only [listOrDefault, failed, faulty] at member
      exact Table.mem_entries_iff.mp ((env.order_perm _).mem_iff.mp member)

/-- A listing that succeeds is complete. -/
theorem mem_listOrDefault (succeeds : env.listFault = none)
    (found : world.keys.find? key.id = some key) : key ∈ listOrDefault env world := by
  simp only [listOrDefault, succeeds, faulty]
  exact (env.order_perm _).mem_iff.mpr (Table.mem_entries_iff.mpr found)

theorem listOrDefault_of_fault {problem : KeystoreError} (failed : env.listFault = some problem) :
    listOrDefault env world = [] := by
  simp only [listOrDefault, failed, faulty]

/-- The plan creates no data keys. -/
theorem keyTypeOf_ne {keys : List KeyMetadata} {spec : KeyToCreate}
    (planned : spec ∈ planCreation keys opts) : keyTypeOf spec.keyType ≠ .dataEncrypting := by
  simp only [planCreation, List.mem_append] at planned
  rcases planned with (root | domain) | kek
  · split at root
    · cases root
    · cases List.mem_singleton.mp root
      exact (by decide : keyTypeOf "Root" ≠ .dataEncrypting)
  · split at domain
    · cases domain
    · cases List.mem_singleton.mp domain
      exact (by decide : keyTypeOf "Domain" ≠ .dataEncrypting)
  · split at kek
    · cases kek
    · cases List.mem_singleton.mp kek
      exact (by decide : keyTypeOf "KeyEncrypting" ≠ .dataEncrypting)

/-- The plan creates at most one key for each level. -/
theorem length_planCreation (keys : List KeyMetadata) (opts : MigrationOptions) :
    (planCreation keys opts).length ≤ 3 := by
  simp only [planCreation]
  split <;> split <;> split <;> simp

/-- Each level of the hierarchy is there or is created. -/
theorem planCreation_complete (keys : List KeyMetadata) (opts : MigrationOptions) :
    ∀ level ∈ [(KeyType.root, opts.rootName), (.domain, opts.domainName),
        (.keyEncrypting, opts.kekName)],
      (∃ key ∈ keys, isNamed level.1 level.2 key = true) ∨
        ∃ spec ∈ planCreation keys opts, keyTypeOf spec.keyType = level.1 ∧ spec.name = level.2 := by
  have decided : ∀ keyType name, (∃ key ∈ keys, isNamed keyType name key = true) ∨
      keys.any (isNamed keyType name) = false := by
    intro keyType name
    rw [← List.any_eq_true]
    exact (Bool.eq_false_or_eq_true _)
  intro level member
  rcases decided level.1 level.2 with present | missing
  · exact .inl present
  refine .inr ?_
  simp only [List.mem_cons, List.not_mem_nil, or_false] at member
  rcases member with rfl | rfl | rfl
  · exact ⟨⟨opts.rootName, "Root", none, "No active Root key exists"⟩,
      by simp [planCreation, missing], (by decide : keyTypeOf "Root" = .root), rfl⟩
  · exact ⟨⟨opts.domainName, "Domain", some opts.rootName, "No active Domain KEK exists"⟩,
      by simp [planCreation, missing], (by decide : keyTypeOf "Domain" = .domain), rfl⟩
  · exact ⟨⟨opts.kekName, "KeyEncrypting", some opts.domainName,
      "No active KEK exists for DEK wrapping"⟩, by simp [planCreation, missing],
      (by decide : keyTypeOf "KeyEncrypting" = .keyEncrypting), rfl⟩

end Listing

/-! ### What a migration is for -/

/-- What a plan is to achieve, in the store that its execution leaves: every data key of
the plan belongs to the domain of the key-encrypting key, encrypts and decrypts, and has
no version left that the master key wraps, and nothing is left to plan. -/
structure Migrated (ks : Keystore) (opts : MigrationOptions) (plan : MigrationPlan)
    (target : Option KeyId) (final : World) : Prop where
  placed : ∀ spec ∈ plan.keysToRewrap, ∃ kek domain, target = some kek ∧
    ResolvesTo final.keys 10 kek domain ∧ ResolvesTo final.keys 10 ⟨spec.keyId⟩ domain
  usable : ∀ spec ∈ plan.keysToRewrap, ∀ (plaintext : Bytes) (aad : Aad) (context : Context),
    plaintext.length ≤ WireV2.maxPlaintextLen → aad.inner.length ≤ 1024 →
    context.inner.length ≤ WireV2.maxContextLen →
    ∃ (first second : Moment) (blob : EncryptedBlob) (after : World),
      (Step.mk first.now first.env (.encrypt ⟨spec.keyId⟩ plaintext aad context)).run ks final =
        (.ok (.blob blob), after) ∧
      ((Step.mk second.now second.env (.decrypt blob aad context)).run ks after).1 =
        .ok (.plaintext plaintext)
  rewrapped : ∀ spec ∈ plan.keysToRewrap, ∀ record,
    final.keys.find? ⟨spec.keyId⟩ = some record →
    ∀ version ∈ record.versions, version.effectiveWrappingMode ≠ .externalMaster
  settled : ∀ now, (planMigration final.keys.entries opts now).isEmpty = true

section Result

variable {ks : Keystore} {during : Nat → Moment} {args : HierarchyArgs} {start final : World}

/-- An execution that reports no error had nothing to do or met none. -/
theorem of_cmdHierarchy (executes : args.execute = true) (changes : args.dryRun = false)
    (ran : cmdHierarchy ks during true args start = (0, final)) :
    ((planFor during args start).isEmpty = true ∧ final = start) ∨
      (executePlan ks during args.opts (planFor during args start) start).errors = 0 ∧
        final = (executePlan ks during args.opts (planFor during args start) start).world := by
  simp only [cmdHierarchy, executes, changes] at ran
  by_cases empty : (planFor during args start).isEmpty = true
  · simp only [empty, if_true] at ran
    cases ran
    exact .inl ⟨empty, rfl⟩
  · simp [empty] at ran
    exact .inr ⟨ran.1, ran.2.symm⟩

theorem grown_start : Grown during start.keys
    ⟨start, 2, existingIds (listOrDefault (during 1).env start) args.opts, 0⟩ where
  kept _ _ found := found
  added _ _ found := .inl found

/-- What the first loop leaves of a clean execution. -/
theorem createAll_clean (fresh : FreshIds during start.keys)
    (clean : (createAll ks during args.opts (planFor during args start) start).errors = 0) :
    Grown during start.keys (createAll ks during args.opts (planFor during args start) start) ∧
      ∀ spec ∈ (planFor during args start).keysToCreate, ∃ id record,
        (createAll ks during args.opts (planFor during args start) start).world.keys.find? id =
            some record ∧ isNamed (keyTypeOf spec.keyType) spec.name record = true := by
  have few : 2 + 2 * (planFor during args start).keysToCreate.length ≤ creationCalls := by
    have := length_planCreation (listOrDefault (during 0).env start) args.opts
    rw [show (planFor during args start).keysToCreate = planCreation _ args.opts from rfl,
      creationCalls]
    omega
  obtain ⟨grown, -, made⟩ :=
    foldl_create fresh grown_start few (fun spec planned => keyTypeOf_ne planned) clean
  exact ⟨grown, made⟩

/-- Without data keys to wrap, an execution is its first loop. -/
theorem executePlan_of_nil (none : (planFor during args start).keysToRewrap = []) :
    executePlan ks during args.opts (planFor during args start) start =
      createAll ks during args.opts (planFor during args start) start := by
  simp only [executePlan, none, List.foldl_nil]

/-- A key that was there is there, of its type and under its parent. -/
theorem keepsPlaces_of_clean (fresh : FreshIds during start.keys)
    (clean : (executePlan ks during args.opts (planFor during args start) start).errors = 0) :
    KeepsPlaces start.keys
      (executePlan ks during args.opts (planFor during args start) start).world.keys := by
  obtain ⟨created, later⟩ := foldl_rewrap clean
  have first : KeepsPlaces start.keys
      (createAll ks during args.opts (planFor during args start) start).world.keys := by
    intro id record found
    exact ⟨record, (createAll_clean fresh created).1.kept id record found, rfl, rfl⟩
  exact KeepsPlaces.trans first later

/-- A data key without a parent belongs to no domain. -/
theorem not_resolvesTo_of_orphan {keys : Keys} {id domain : KeyId} {record : KeyMetadata}
    {left : Nat} (found : keys.find? id = some record) (data : record.keyType = .dataEncrypting)
    (orphan : record.parentId = none) : ¬ ResolvesTo keys left id domain := by
  intro resolves
  cases resolves with
  | domain present isDomain =>
      cases found.symm.trans present
      rw [data] at isDomain
      cases isDomain
  | parent present below notRoot child above =>
      cases found.symm.trans present
      rw [orphan] at child
      cases child

/-- A flat data key that was listed is in the plan. -/
theorem planned_of_flat {id : KeyId} {record : KeyMetadata}
    (listed : (during 0).env.listFault = none) (found : start.keys.find? id = some record)
    (flat : record.Flat) :
    ∃ spec ∈ (planFor during args start).keysToRewrap, (⟨spec.keyId⟩ : KeyId) = id := by
  have own : record.id = id := Table.key_of_find? found
  have member : record ∈ listOrDefault (during 0).env start :=
    mem_listOrDefault listed ((congrArg start.keys.find? own).trans found)
  exact ⟨_, (mem_keysToRewrap rfl).mpr ⟨record, member, flat, rfl⟩, own⟩

/-- A migration that had a data key without a parent to migrate has not achieved what it
is for. -/
theorem not_migrated_of_flat {id : KeyId} {record : KeyMetadata} {target : Option KeyId}
    (fresh : FreshIds during start.keys) (executes : args.execute = true)
    (changes : args.dryRun = false)
    (ran : cmdHierarchy ks during true args start = (0, final))
    (found : start.keys.find? id = some record) (flat : record.Flat)
    (orphan : record.parentId = none) :
    ¬ Migrated ks args.opts (planFor during args start) target final := by
  intro migrated
  cases listed : (during 0).env.listFault with
  | none =>
      obtain ⟨spec, planned, named⟩ := planned_of_flat listed found flat
      obtain ⟨kek, domain, -, -, resolves⟩ := migrated.placed spec planned
      rw [named] at resolves
      rcases of_cmdHierarchy executes changes ran with ⟨empty, rfl⟩ | ⟨clean, rfl⟩
      · exact not_resolvesTo_of_orphan found flat.data orphan resolves
      · obtain ⟨kept, there, sameType, sameParent⟩ :=
          keepsPlaces_of_clean fresh clean id record found
        exact not_resolvesTo_of_orphan there (sameType.trans flat.data) (sameParent.trans orphan)
          resolves
  | some problem =>
      -- nothing was listed, so nothing was planned and the key is as it was
      have nothing : (planFor during args start).keysToRewrap = [] := by
        simp only [planFor, listOrDefault_of_fault listed]
        rfl
      have kept : final.keys.find? id = some record := by
        rcases of_cmdHierarchy executes changes ran with ⟨empty, rfl⟩ | ⟨clean, rfl⟩
        · exact found
        · rw [executePlan_of_nil nothing] at clean ⊢
          exact (createAll_clean fresh clean).1.kept id record found
      have own : record.id = id := Table.key_of_find? found
      have member : record ∈ final.keys.entries :=
        Table.mem_entries_iff.mpr ((congrArg final.keys.find? own).trans kept)
      exact ((isEmpty_planMigration rfl).mp (migrated.settled 0)).2.2.2 record member flat

/-- Without flat data keys a migration creates what is missing, and then there is nothing
left to plan. -/
theorem settled_of_no_flat (fresh : FreshIds during start.keys) (executes : args.execute = true)
    (changes : args.dryRun = false)
    (ran : cmdHierarchy ks during true args start = (0, final))
    (none : ∀ id record, start.keys.find? id = some record → ¬ record.Flat) (now : Nat) :
    (planMigration final.keys.entries args.opts now).isEmpty = true := by
  have nothing : (planFor during args start).keysToRewrap = [] := by
    rw [List.eq_nil_iff_forall_not_mem]
    intro spec planned
    obtain ⟨key, member, flat, -⟩ := (mem_keysToRewrap rfl).mp planned
    exact none key.id key (find?_of_mem_listOrDefault member) flat
  rcases of_cmdHierarchy executes changes ran with ⟨empty, rfl⟩ | ⟨clean, rfl⟩
  · have stored : ∀ keyType name, (∃ key ∈ listOrDefault (during 0).env final,
        isNamed keyType name key = true) → ∃ key ∈ final.keys.entries,
          isNamed keyType name key = true := by
      rintro keyType name ⟨key, member, named⟩
      exact ⟨key, Table.mem_entries_iff.mpr (find?_of_mem_listOrDefault member), named⟩
    obtain ⟨root, domain, kek, -⟩ := (isEmpty_planMigration rfl).mp empty
    refine (isEmpty_planMigration rfl).mpr ⟨stored _ _ root, stored _ _ domain, stored _ _ kek, ?_⟩
    intro key member
    exact none key.id key (Table.mem_entries_iff.mp member)
  · rw [executePlan_of_nil nothing] at clean ⊢
    obtain ⟨grown, made⟩ := createAll_clean fresh clean
    have levels : ∀ level ∈ [(KeyType.root, args.opts.rootName), (.domain, args.opts.domainName),
        (.keyEncrypting, args.opts.kekName)], ∃ key ∈
          (createAll ks during args.opts (planFor during args start) start).world.keys.entries,
            isNamed level.1 level.2 key = true := by
      intro level member
      rcases planCreation_complete (listOrDefault (during 0).env start) args.opts level member with
        ⟨key, listed, named⟩ | ⟨spec, planned, sameType, sameName⟩
      · have kept := grown.kept key.id key (find?_of_mem_listOrDefault listed)
        exact ⟨key, Table.mem_entries_iff.mpr kept, named⟩
      · obtain ⟨id, record, found, named⟩ := made spec planned
        have own : record.id = id := Table.key_of_find? found
        rw [sameType, sameName] at named
        rw [← own] at found
        exact ⟨record, Table.mem_entries_iff.mpr found, named⟩
    have root := levels (.root, args.opts.rootName) (by simp)
    have domain := levels (.domain, args.opts.domainName) (by simp)
    have kek := levels (.keyEncrypting, args.opts.kekName) (by simp)
    refine (isEmpty_planMigration rfl).mpr ⟨root, domain, kek, ?_⟩
    intro key member flat
    rcases grown.added key.id key (Table.mem_entries_iff.mp member) with old | ⟨notData, -⟩
    · exact none key.id key old flat
    · exact notData flat.data

/-- Data keys in use that no key wraps have no parent. A migration that reports no error
achieves what it is for exactly if there was no such key to migrate. -/
theorem migration_achieved_iff (ks : Keystore) (during : Nat → Moment) (args : HierarchyArgs)
    (start final : World) (fresh : FreshIds during start.keys)
    (orphans : ∀ id record, start.keys.find? id = some record → record.Flat →
      record.parentId = none)
    (executes : args.execute = true) (changes : args.dryRun = false)
    (ran : cmdHierarchy ks during true args start = (0, final)) :
    Migrated ks args.opts (planFor during args start)
        ((createAll ks during args.opts (planFor during args start) start).createdIds args.kekName)
        final ↔
      ∀ id record, start.keys.find? id = some record → ¬ record.Flat := by
  constructor
  · intro migrated id record found flat
    exact not_migrated_of_flat fresh executes changes ran found flat (orphans id record found flat)
      migrated
  · intro none
    have nothing : ∀ spec, spec ∉ (planFor during args start).keysToRewrap := by
      intro spec planned
      obtain ⟨key, member, flat, -⟩ := (mem_keysToRewrap rfl).mp planned
      exact none key.id key (find?_of_mem_listOrDefault member) flat
    exact
      { placed := fun spec planned => absurd planned (nothing spec)
        usable := fun spec planned => absurd planned (nothing spec)
        rewrapped := fun spec planned => absurd planned (nothing spec)
        settled := settled_of_no_flat fresh executes changes ran none }

end Result

/-! ### A migration that reports no error -/

section Success

variable {ks : Keystore} {during : Nat → Moment} {state : Execution}

/-- A call that succeeds is answered. -/
theorem request_run {call : Call} {value : CallValue} {after : World}
    (ran : ∀ fuel, (call.prog ks fuel).run (handle (during state.calls).env)
      { state.world with now := (during state.calls).now } = (.ok value, after)) :
    ∃ next, state.request ks during call = (.ok value, next) ∧ Answered state next after.keys := by
  simp only [Execution.request, Step.run_of_prog ran]
  exact ⟨_, rfl, rfl, rfl, rfl, rfl⟩

/-- A key that may be placed there is created, and secrets can be sealed to it. -/
theorem create_run {spec : KeyToCreate} (lawful : ks.crypto.Lawful)
    (can : ∀ call, CanWrap ks (during call).env) (clean : state.errors = 0)
    (kem : keyTypeOf spec.keyType ≠ .signing)
    (placed : Placed state.world.keys (during state.calls).env.process.flatOverride
      (keyTypeOf spec.keyType) (spec.parentName.bind state.createdIds))
    (sealable : Sealable ks state.world.keys (drawn during state.calls) 1
      (spec.parentName.bind state.createdIds)) :
    (state.create ks during spec).errors = 0 ∧ ∃ record version key,
      Created state spec (drawn during state.calls) record (state.create ks during spec) ∧
      record.currentKeyVersion = some version ∧ StoresPublicKey ks version.publicKeyHex key := by
  obtain ⟨wrapped, made, -⟩ : ∃ wrapped, (ks.generate spec.name (keyTypeOf spec.keyType) none
      (spec.parentName.bind state.createdIds)).run (handle (during state.calls).env)
        { state.world with now := (during state.calls).now } = _ ∧ _ :=
    generate_run (can state.calls) kem placed sealable
  obtain ⟨next, generated, first⟩ : ∃ next, state.request ks during (.generate spec.name
      (keyTypeOf spec.keyType) none (spec.parentName.bind state.createdIds)) =
        (.ok (.key (drawn during state.calls)), next) ∧ _ := request_run fun fuel => by
    rw [Call.prog, run_bind, made]
    rfl
  have found := (congrArg (Table.find? · (drawn during state.calls)) first.keys).trans
    (Table.find?_insert_self _ _)
  have moved : (activate (drawn during state.calls)).run (handle (during next.calls).env)
      { next.world with now := (during next.calls).now } = _ :=
    activate_run (can next.calls).reliable found rfl
  obtain ⟨last, activated, second⟩ : ∃ last, next.request ks during
      (.activate (drawn during state.calls)) = (.ok .done, last) ∧ _ := request_run fun fuel => by
    rw [Call.prog, run_bind, moved]
    rfl
  have errors : (state.create ks during spec).errors = 0 := by
    simp only [Execution.create, generated, activated]
    rw [second.errors, first.errors, clean]
  obtain ⟨record, created⟩ := created_of_clean errors
  have left : (state.create ks during spec).world = last.world := by
    simp only [Execution.create, generated, activated]
  have stored := (created.keys (drawn during state.calls)).trans (if_pos rfl)
  rw [left, second.keys] at stored
  cases stored.symm.trans (Table.find?_insert_self _ _)
  refine ⟨errors, _, _, (keygen ks.crypto (during state.calls).env.randomness.keypair).1, created,
    rfl, _, ?_, PublicKey.fromBytes_toBytes lawful (keygen ks.crypto
      (during state.calls).env.randomness.keypair).2⟩
  rw [firstVersion, utf8_hexEncode, hexDecode_hexBytes]
  rfl

/-- A version that can be opened is wrapped anew. -/
theorem rewrap_run_clean {kek : KeyId} {spec : KeyToRewrap} {record : KeyMetadata}
    {version : KeyVersion} {secret : Bytes} (can : ∀ call, CanWrap ks (during call).env)
    (clean : state.errors = 0) (found : state.world.keys.find? ⟨spec.keyId⟩ = some record)
    (current : record.currentKeyVersion = some version)
    (unwraps : Unwraps ks state.world.keys true (maxUnwrapDepth + 1) ⟨spec.keyId⟩ version secret)
    (sealable : Sealable ks state.world.keys ⟨spec.keyId⟩ version.version (some kek))
    (fits : secret.length ≤ WireV2.maxPlaintextLen) :
    (state.rewrap ks during (some kek) spec).errors = 0 := by
  obtain ⟨wrapped, did, -⟩ : ∃ wrapped, (ks.rewrap ⟨spec.keyId⟩ (some kek)).run
      (handle (during state.calls).env) { state.world with now := (during state.calls).now } = _ ∧ _ :=
    rewrap_run (can state.calls) found current unwraps sealable fits
  obtain ⟨next, rewrapped, answered⟩ : ∃ next, state.request ks during
      (.rewrap ⟨spec.keyId⟩ (some kek)) = (.ok .done, next) ∧ _ := request_run fun fuel => by
    rw [Call.prog, run_bind, did]
    rfl
  simp only [Execution.rewrap, rewrapped]
  rw [answered.errors, clean]

end Success

/-! A data key generated under the override, and the command on a store with no other key. -/

/-- A process with the override for flat data keys. -/
def flatEnv (n : Nat) : Env := { quietEnv n with process := ⟨true, true, true⟩ }

theorem flatEnv_canWrap (n : Nat) : CanWrap plainKeystore (flatEnv n) :=
  { plainKeystore_growable.canWrap n with
    reliable := { quietEnv_reliable n with }
    devMode := rfl }

/-- The number of the data key; the command draws smaller ones. -/
def flatNumber : Nat := 100

/-- The store after one data key was generated and activated under the override. -/
structure FlatStore (start : World) (record : KeyMetadata) (version : KeyVersion) (secret : Bytes) :
    Prop where
  reachable : Reachable plainKeystore anyStep start
  entries : start.keys.entries = [record]
  id : record.id = keyNumbered flatNumber
  flat : record.Flat
  orphan : record.parentId = none
  current : record.currentKeyVersion = some version
  number : version.version = 1
  material : version.secretKeyMaterial = .plaintext (hexEncode secret)
  fits : secret.length ≤ WireV2.maxPlaintextLen

/-- The record of the data key while it is pending. -/
def pendingFlat (wrapped : Wrapped) : KeyMetadata :=
  newRecord (keyNumbered flatNumber) "orders" .dataEncrypting none none 0
    (firstVersion 0 (hexEncode (plainKeystore.kemKeyPair (flatEnv flatNumber).randomness).1) wrapped)

theorem generate_pendingFlat : ∃ wrapped,
    (Step.mk 0 (flatEnv flatNumber) (.generate "orders" .dataEncrypting none none)).run
        plainKeystore (.initial 0 (.memory ⟨1, []⟩)) =
      (.ok (.key (keyNumbered flatNumber)),
        ⟨0, Table.empty.insert (pendingFlat wrapped), .memory ⟨1, []⟩⟩) ∧
    wrapped = ⟨.plaintext (hexEncode
      (plainKeystore.kemKeyPair (flatEnv flatNumber).randomness).2), none, none⟩ := by
  obtain ⟨wrapped, made, wraps⟩ : ∃ wrapped, (plainKeystore.generate "orders" .dataEncrypting none
      none).run (handle (flatEnv flatNumber)) (.initial 0 (.memory ⟨1, []⟩)) = _ ∧ _ :=
    generate_run (flatEnv_canWrap flatNumber) (by decide) (.root (.inr rfl)) (.master (by simp))
  refine ⟨wrapped, Step.run_of_prog fun fuel => ?_, ?_⟩
  · rw [Call.prog, run_bind]
    exact congrArg (andThen _ _) made
  · cases wraps with
    | master unsealed wraps =>
        cases wraps with
        | plaintext unset => rfl
        | encrypted set encrypts => cases set

theorem find?_pendingFlat (wrapped : Wrapped) :
    (Table.empty.insert (pendingFlat wrapped) : Keys).find? (keyNumbered flatNumber) =
      some (pendingFlat wrapped) :=
  find?_insert_own rfl

theorem activate_pendingFlat (wrapped : Wrapped) :
    (Step.mk 0 (flatEnv (flatNumber + 1)) (.activate (keyNumbered flatNumber))).run plainKeystore
        ⟨0, Table.empty.insert (pendingFlat wrapped), .memory ⟨1, []⟩⟩ =
      (.ok .done, ⟨0, (Table.empty.insert (pendingFlat wrapped)).insert
        (activatedRecord (pendingFlat wrapped) 0 0), .memory ⟨1, []⟩⟩) := by
  have edge : (pendingFlat wrapped).state.canTransitionTo .active = true := rfl
  have ran : (activate (keyNumbered flatNumber)).run (handle (flatEnv (flatNumber + 1)))
      ⟨0, Table.empty.insert (pendingFlat wrapped), .memory ⟨1, []⟩⟩ = _ :=
    activate_run (flatEnv_canWrap (flatNumber + 1)).reliable (find?_pendingFlat wrapped) edge
  refine Step.run_of_prog fun fuel => ?_
  rw [Call.prog, run_bind]
  exact congrArg (andThen _ _) ran

/-- The record of the data key in use. -/
def activeFlat (wrapped : Wrapped) : KeyMetadata := activatedRecord (pendingFlat wrapped) 0 0

theorem entries_activeFlat (wrapped : Wrapped) :
    ((Table.empty.insert (pendingFlat wrapped)).insert (activeFlat wrapped) : Keys).entries =
      [activeFlat wrapped] := by
  have one : (Table.empty.insert (pendingFlat wrapped) : Keys).entries.length = 1 := by
    simp [Table.insert, Table.empty]
  have still : ((Table.empty.insert (pendingFlat wrapped)).insert (activeFlat wrapped) :
      Keys).entries.length = 1 :=
    (Table.length_insert_of_find? (find?_pendingFlat wrapped)).trans one
  have found : ((Table.empty.insert (pendingFlat wrapped)).insert (activeFlat wrapped) :
      Keys).find? (keyNumbered flatNumber) = some (activeFlat wrapped) := find?_insert_own rfl
  obtain ⟨only, entries⟩ := List.length_eq_one_iff.mp still
  have member := Table.mem_of_find? found
  rw [entries] at member ⊢
  rw [List.mem_singleton.mp member]

theorem reachable_activeFlat {wrapped : Wrapped}
    (generated : (Step.mk 0 (flatEnv flatNumber) (.generate "orders" .dataEncrypting none none)).run
        plainKeystore (.initial 0 (.memory ⟨1, []⟩)) =
      (.ok (.key (keyNumbered flatNumber)),
        ⟨0, Table.empty.insert (pendingFlat wrapped), .memory ⟨1, []⟩⟩)) :
    Reachable plainKeystore anyStep ⟨0, (Table.empty.insert (pendingFlat wrapped)).insert
      (activeFlat wrapped), .memory ⟨1, []⟩⟩ := by
  have first : Reachable plainKeystore anyStep
      ⟨0, Table.empty.insert (pendingFlat wrapped), .memory ⟨1, []⟩⟩ := by
    refine ⟨0, .memory ⟨1, []⟩, ?_⟩
    have start : Reaches plainKeystore anyStep (.initial 0 (.memory ⟨1, []⟩))
      (.initial 0 (.memory ⟨1, []⟩)) := .refl
    have step := start.step (Step.mk 0 (flatEnv flatNumber) (.generate "orders" .dataEncrypting none
      none)) (Table.find?_empty _) trivial
    rw [generated] at step
    exact step
  have absent : (Table.empty.insert (pendingFlat wrapped) : Keys).find?
      (keyNumbered (flatNumber + 1)) = none := by
    have own : (pendingFlat wrapped).id = keyNumbered flatNumber := rfl
    rw [find?_insert_numbered own (by decide) (by decide) (by decide), Table.find?_empty]
  have second := first.step (Step.mk 0 (flatEnv (flatNumber + 1)) (.activate (keyNumbered flatNumber)))
    absent trivial
  rw [activate_pendingFlat] at second
  exact second

theorem exists_flatStore : ∃ start record version secret, FlatStore start record version secret := by
  obtain ⟨wrapped, generated, plain⟩ := generate_pendingFlat
  have fits : (plainKeystore.kemKeyPair (flatEnv flatNumber).randomness).2.length ≤
      WireV2.maxPlaintextLen := kemKeyPair_fits _
  refine ⟨_, activeFlat wrapped, _, _, reachable_activeFlat generated, entries_activeFlat wrapped, rfl,
    ⟨rfl, .inl rfl, ?_⟩, rfl, rfl, rfl, ?_, fits⟩
  · rw [plain]
    rfl
  · rw [plain]
    rfl

/-- Calls that nothing disturbs, each with its own number. -/
def quietMoments (call : Nat) : Moment := ⟨0, quietEnv call⟩

/-- The command with its default names. -/
def executeArgs : HierarchyArgs := ⟨false, true, "default-root", "default-domain", "default-kek"⟩

/-- The three keys of a hierarchy with the default names. -/
def rootSpec : KeyToCreate := ⟨"default-root", "Root", none, "No active Root key exists"⟩

def domainSpec : KeyToCreate :=
  ⟨"default-domain", "Domain", some "default-root", "No active Domain KEK exists"⟩

def kekSpec : KeyToCreate :=
  ⟨"default-kek", "KeyEncrypting", some "default-domain", "No active KEK exists for DEK wrapping"⟩

theorem quietMoments_canWrap (call : Nat) : CanWrap plainKeystore (quietMoments call).env :=
  plainKeystore_growable.canWrap call

section FlatStore

variable {start : World} {record : KeyMetadata} {version : KeyVersion} {secret : Bytes}

theorem FlatStore.found (store : FlatStore start record version secret) :
    start.keys.find? (keyNumbered flatNumber) = some record := by
  have member : record ∈ start.keys.entries := by
    rw [store.entries]
    exact List.mem_singleton_self record
  rw [← store.id]
  exact Table.mem_entries_iff.mp member

theorem FlatStore.only (store : FlatStore start record version secret) {id : KeyId}
    {other : KeyMetadata} (found : start.keys.find? id = some other) : other = record := by
  have member := Table.mem_of_find? found
  rw [store.entries] at member
  exact List.mem_singleton.mp member

theorem FlatStore.fresh (store : FlatStore start record version secret) :
    FreshIds quietMoments start.keys where
  unused := by
    intro call early
    cases found : start.keys.find? (drawn quietMoments call) with
    | none => rfl
    | some other =>
        have same : record.id = keyNumbered call :=
          store.only found ▸ Table.key_of_find? found
        rw [store.id, keyNumbered_inj (by decide) (by unfold creationCalls at early; omega)] at same
        subst same
        exact absurd early (by decide)
  distinct := by
    intro first early second late same
    unfold creationCalls at early late
    exact (keyNumbered_inj (by omega) (by omega)).mp same

theorem FlatStore.planned (store : FlatStore start record version secret) :
    (planFor quietMoments executeArgs start).keysToCreate =
        [rootSpec, domainSpec, kekSpec] ∧
      (planFor quietMoments executeArgs start).keysToRewrap =
        [⟨record.id.text, record.name, currentWrapping record, "default-kek"⟩] := by
  have listed : listOrDefault (quietMoments 0).env start = [record] := store.entries
  have unnamed : ∀ keyType name, keyType ≠ .dataEncrypting →
      isNamed keyType name record = false := by
    intro keyType name above
    simp [isNamed, store.flat.data, above.symm]
  constructor
  · simp [planFor, listed, planMigration, planCreation, unnamed, executeArgs, HierarchyArgs.opts,
      rootSpec, domainSpec, kekSpec]
  · have planned : planKey executeArgs.opts record = _ := (planKey_eq_ok rfl).mpr ⟨store.flat, rfl⟩
    simp [planFor, listed, planMigration, planned, Except.toOption]
    rfl

/-- The hierarchy is created without an error, and secrets can be sealed to its
key-encrypting key. -/
theorem FlatStore.created (store : FlatStore start record version secret) :
    ∃ created, createAll plainKeystore quietMoments executeArgs.opts
        (planFor quietMoments executeArgs start) start = created ∧ created.errors = 0 ∧
      created.createdIds executeArgs.opts.kekName = some (keyNumbered 6) ∧
      ∃ kek version key, created.world.keys.find? (keyNumbered 6) = some kek ∧
        kek.keyType = .keyEncrypting ∧ kek.currentKeyVersion = some version ∧
        StoresPublicKey plainKeystore version.publicKeyHex key := by
  have lawful := plainKeystore_growable.lawful
  simp only [createAll, store.planned.1, List.foldl_cons, List.foldl_nil]
  generalize existingIds (listOrDefault (quietMoments 1).env start) executeArgs.opts = ids
  -- the root, under the master key
  obtain ⟨rootClean, root, rootVersion, rootKey, rootMade, -, -⟩ :
      (Execution.create plainKeystore quietMoments ⟨start, 2, ids, 0⟩ rootSpec).errors = 0 ∧ _ :=
    create_run lawful quietMoments_canWrap rfl (by decide) (.root (.inl (by decide)))
      (.master fun parent same => by cases same)
  generalize Execution.create plainKeystore quietMoments ⟨start, 2, ids, 0⟩ rootSpec = afterRoot at *
  have rootFound : afterRoot.world.keys.find? (keyNumbered 2) = some root :=
    (rootMade.keys _).trans (if_pos rfl)
  have rootNamed : domainSpec.parentName.bind afterRoot.createdIds = some (keyNumbered 2) := by
    rw [rootMade.createdIds]
    rfl
  -- the domain, under the master key as well
  obtain ⟨domainClean, domain, domainVersion, domainKey, domainMade, domainCurrent, domainStores⟩ :
      (Execution.create plainKeystore quietMoments afterRoot domainSpec).errors = 0 ∧ _ := by
    apply create_run lawful quietMoments_canWrap rootClean (by decide)
    · rw [rootNamed]
      refine .child rootFound (.inl ?_)
      rw [rootMade.keyType]
      decide
    · rw [rootNamed]
      refine .master ?_
      rintro parent ⟨⟩
      refine ⟨root, rootFound, ?_⟩
      rw [rootMade.keyType]
      decide
  have domainAt : afterRoot.calls = 4 := rootMade.calls
  rw [domainAt] at domainMade
  generalize Execution.create plainKeystore quietMoments afterRoot domainSpec = afterDomain at *
  have domainFound : afterDomain.world.keys.find? (keyNumbered 4) = some domain :=
    (domainMade.keys _).trans (if_pos rfl)
  have domainNamed : kekSpec.parentName.bind afterDomain.createdIds = some (keyNumbered 4) := by
    rw [domainMade.createdIds]
    rfl
  have kekAt : afterDomain.calls = 6 := by rw [domainMade.calls, domainAt]
  -- the key-encrypting key, sealed to the domain
  obtain ⟨kekClean, kek, kekVersion, kekKey, kekMade, kekCurrent, kekStores⟩ :
      (Execution.create plainKeystore quietMoments afterDomain kekSpec).errors = 0 ∧ _ := by
    apply create_run lawful quietMoments_canWrap domainClean (by decide)
    · rw [domainNamed]
      refine .child domainFound (.inl ?_)
      rw [domainMade.keyType]
      decide
    · rw [domainNamed]
      refine .sealed domainFound ?_ domainCurrent domainStores (hierarchyWrapContext_fits
        (KeyId.generate_length _) (keyNumbered_length 4) (by decide))
      rw [domainMade.keyType]
      decide
  rw [kekAt] at kekMade
  generalize Execution.create plainKeystore quietMoments afterDomain kekSpec = afterKek at *
  have kekFound : afterKek.world.keys.find? (keyNumbered 6) = some kek :=
    (kekMade.keys _).trans (if_pos rfl)
  have kekNamed : afterKek.createdIds executeArgs.opts.kekName = some (keyNumbered 6) := by
    rw [kekMade.createdIds]
    rfl
  exact ⟨afterKek, rfl, kekClean, kekNamed, kek, kekVersion, kekKey, kekFound, kekMade.keyType,
    kekCurrent, kekStores⟩

/-- The data key is wrapped anew, without an error. -/
theorem FlatStore.executed (store : FlatStore start record version secret) :
    (executePlan plainKeystore quietMoments executeArgs.opts
      (planFor quietMoments executeArgs start) start).errors = 0 := by
  obtain ⟨created, same, clean, named, kek, kekVersion, key, kekFound, keyType, current, stores⟩ :=
    store.created
  have kept := (createAll_clean store.fresh (same ▸ clean)).1.kept _ record store.found
  rw [same] at kept
  have flatId : (⟨record.id.text⟩ : KeyId) = keyNumbered flatNumber := store.id
  simp only [executePlan, same, named, store.planned.2, List.foldl_cons, List.foldl_nil]
  apply rewrap_run_clean quietMoments_canWrap clean (flatId ▸ kept) store.current
    (.plaintext store.material ?_) ?_ store.fits
  · rw [utf8_hexEncode, hexDecode_hexBytes]
  · rw [flatId, store.number]
    refine .sealed kekFound ?_ current stores (hierarchyWrapContext_fits (keyNumbered_length _)
      (keyNumbered_length 6) (by decide))
    rw [keyType]
    rfl

/-- The command reports success. -/
theorem FlatStore.ran (store : FlatStore start record version secret) :
    ∃ final, cmdHierarchy plainKeystore quietMoments true executeArgs start = (0, final) := by
  have some : (planFor quietMoments executeArgs start).isEmpty = false := by
    simp [MigrationPlan.isEmpty, store.planned.1]
  refine ⟨(executePlan plainKeystore quietMoments executeArgs.opts
    (planFor quietMoments executeArgs start) start).world, ?_⟩
  have executes : executeArgs.execute = true := rfl
  have changes : executeArgs.dryRun = false := rfl
  simp [cmdHierarchy, some, store.executed, executes, changes]

end FlatStore

/-- A migration that reports success leaves its data key without a domain. -/
theorem migrated_key_without_domain :
    ∃ start final record, Reachable plainKeystore anyStep start ∧
      start.keys.entries = [record] ∧ record.keyType = .dataEncrypting ∧ record.parentId = none ∧
      cmdHierarchy plainKeystore quietMoments true executeArgs start = (0, final) ∧
      ∀ target, ¬ Migrated plainKeystore executeArgs.opts (planFor quietMoments executeArgs start)
        target final := by
  obtain ⟨start, record, version, secret, store⟩ := exists_flatStore
  obtain ⟨final, ran⟩ := store.ran
  refine ⟨start, final, record, store.reachable, store.entries, store.flat.data, store.orphan, ran, ?_⟩
  intro target
  exact not_migrated_of_flat store.fresh rfl rfl ran store.found store.flat store.orphan

/-- On the same store, the condition fails and so does the migration. -/
theorem migration_missed :
    ∃ start final, cmdHierarchy plainKeystore quietMoments true executeArgs start = (0, final) ∧
      ¬ Migrated plainKeystore executeArgs.opts (planFor quietMoments executeArgs start)
        ((createAll plainKeystore quietMoments executeArgs.opts
          (planFor quietMoments executeArgs start) start).createdIds executeArgs.kekName) final := by
  obtain ⟨start, record, version, secret, store⟩ := exists_flatStore
  obtain ⟨final, ran⟩ := store.ran
  have orphans : ∀ id other, start.keys.find? id = some other → other.Flat →
      other.parentId = none := by
    intro id other found _
    rw [store.only found, store.orphan]
  refine ⟨start, final, ran, ?_⟩
  intro migrated
  exact (migration_achieved_iff plainKeystore quietMoments executeArgs start final store.fresh
    orphans rfl rfl ran).mp migrated _ record store.found store.flat

end Citadel.Cli
