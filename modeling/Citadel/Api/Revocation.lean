import Citadel.Api.Delegation
import Citadel.Api.Steps

/-!
# Two layers agree on revocation

A key whose record is revoked or destroyed is denied by the enforcer as long as the
server runs and hears of every change: a revocation is told to the enforcer only when the
keystore acknowledged it. A restart breaks the agreement, since it registers every stored
key anew, whatever its state.
-/

namespace Citadel.Api

open Envelope Program Keystore

variable {ks : Keystore} {moment : Moment} {app : AppState} {env : Env} {world after : World}
  {keys : Keys} {id : KeyId}

/-- The record of a key is revoked or destroyed. -/
def RetiredIn (keys : Keys) (id : KeyId) : Prop :=
  ∃ record, keys.find? id = some record ∧ (record.state = .revoked ∨ record.state = .destroyed)

/-- The enforcer denies every key that is retired. -/
def Agreement (app : AppState) : Prop :=
  ∀ id, RetiredIn app.world.keys id → Denied app.enforcer id.text

/-- The calls of the routes that retire a key. -/
def RetiresNothing : Call → Prop
  | .revoke _ => False
  | .destroy _ => False
  | .revokeCascade _ => False
  | .rewrap _ _ => False
  | _ => True

/-- What the other calls write is not retired. -/
theorem state_of_change {call : Call} {record : KeyMetadata}
    (change : Change ks env keys call record) (nothing : RetiresNothing call) :
    record.state ≠ .revoked ∧ record.state ≠ .destroyed := by
  cases change with
  | generated kem placed wraps => constructor <;> (intro same; cases same)
  | signingGenerated placed wraps => constructor <;> (intro same; cases same)
  | activated found edge => constructor <;> (intro same; cases same)
  | rotated found active wraps => constructor <;> (intro same; cases same)
  | expired found usable => constructor <;> (intro same; cases same)
  | dueExpired found usable => constructor <;> (intro same; cases same)
  | used found active data =>
      rw [usedRecord, active]
      constructor <;> (intro same; cases same)
  | rewrapped found current unwraps wraps => exact nothing.elim
  | revoked found active => exact nothing.elim
  | cascadeRevoked found active => exact nothing.elim
  | suspended found edge => exact nothing.elim
  | destroyed found edge => exact nothing.elim

/-- A record that is not retired retires no key when it is stored. -/
theorem RetiredIn.of_insert {record : KeyMetadata}
    (live : record.state ≠ .revoked ∧ record.state ≠ .destroyed)
    (retired : RetiredIn (keys.insert record) id) : RetiredIn keys id := by
  obtain ⟨stored, found, state⟩ := retired
  rw [Table.find?_insert] at found
  split at found
  · cases found
    exact absurd state (by simp [live])
  · exact ⟨stored, found, state⟩

/-- The operations that neither retire a key nor register one. -/
def Service.Quiet (op : Service) : Prop :=
  op.RegistersNothing ∧ ∀ call, op.call? = some call → RetiresNothing call

/-- Quiet operations keep the agreement. -/
theorem Agreement.serve (agree : Agreement app) (ks : Keystore) (moment : Moment) (op : Service)
    (quiet : op.Quiet) :
    Agreement (serve ks moment app op).2 := by
  intro id retired
  apply Denied.serve _ quiet.1
  apply agree
  refine serve_keys_invariant (fun keys => ∀ id, RetiredIn keys id → RetiredIn app.world.keys id)
    ?_ (fun id retired => retired) id retired
  intro call keys record calls held mayWrite id retired
  exact held id (retired.of_insert (state_of_change mayWrite.change (quiet.2 call calls)))

/-- A stored record that is not retired. -/
theorem not_retiredIn {record : KeyMetadata} (found : keys.find? id = some record)
    (live : record.state ≠ .revoked ∧ record.state ≠ .destroyed) : ¬ RetiredIn keys id := by
  rintro ⟨stored, present, state⟩
  obtain rfl := Option.some.inj (found.symm.trans present)
  exact absurd state (by simp [live])

/-- A key that was just created is pending. -/
theorem createKey_live {name : String} {keyType : KeyType} {policyId : Option PolicyId}
    {parentId : Option KeyId} {keyPair : Randomness → Bytes × Bytes}
    (ran : (ks.createKey name keyType policyId parentId keyPair).run (handle env) world =
      (.ok id, after)) : ¬ RetiredIn after.keys id := by
  obtain ⟨random, _, -, ran⟩ := of_run_bind_eq_ok ran
  obtain ⟨now, _, -, ran⟩ := of_run_bind_eq_ok ran
  obtain ⟨wrapped, _, -, ran⟩ := of_run_bind_eq_ok ran
  have returned := of_put_bind_eq_ok ran
  cases returned
  exact not_retiredIn (find?_insert_own rfl) ⟨nofun, nofun⟩

theorem generate_live {name : String} {keyType : KeyType} {policyId : Option PolicyId}
    {parentId : Option KeyId}
    (ran : (ks.generate name keyType policyId parentId).run (handle env) world = (.ok id, after)) :
    ¬ RetiredIn after.keys id := by
  obtain ⟨-, ran⟩ := of_run_guard_eq_ok (of_run_mapErr_eq_ok ran)
  obtain ⟨_, _, -, ran⟩ := of_run_bind_eq_ok ran
  obtain ⟨_, _, -, ran⟩ := of_run_bind_eq_ok ran
  exact createKey_live ran

theorem generateSigningKey_live {name : String} {policyId : Option PolicyId} {parentId : KeyId}
    (ran : (ks.generateSigningKey name policyId parentId).run (handle env) world =
      (.ok id, after)) : ¬ RetiredIn after.keys id := by
  obtain ⟨_, _, -, ran⟩ := of_run_bind_eq_ok (of_run_mapErr_eq_ok ran)
  obtain ⟨_, _, -, ran⟩ := of_run_bind_eq_ok ran
  obtain ⟨_, _, -, ran⟩ := of_run_bind_eq_ok ran
  obtain ⟨_, _, -, ran⟩ := of_run_bind_eq_ok ran
  obtain ⟨_, _, -, ran⟩ := of_run_bind_eq_ok ran
  obtain ⟨-, ran⟩ := of_run_guard_eq_ok ran
  exact createKey_live ran

/-- A key that was just rotated is active. -/
theorem rotate_live {rotated : KeyId}
    (ran : (ks.rotate rotated).run (handle env) world = (.ok id, after)) :
    ¬ RetiredIn after.keys id := by
  obtain ⟨record, got, ran⟩ := (get_reads rotated).of_run_bind_eq_ok
    (fun op isRead state => handle_of_reads isRead state) (of_run_mapErr_eq_ok ran)
  have own : record.id = rotated := Table.key_of_find? (find?_of_get got)
  obtain ⟨-, ran⟩ := of_run_guard_eq_ok ran
  obtain ⟨_, _, -, ran⟩ := of_run_bind_eq_ok ran
  obtain ⟨random, _, -, ran⟩ := of_run_bind_eq_ok ran
  obtain ⟨now, _, -, ran⟩ := of_run_bind_eq_ok ran
  obtain ⟨wrapped, _, -, ran⟩ := of_run_bind_eq_ok ran
  have returned := of_put_bind_eq_ok ran
  cases returned
  exact not_retiredIn (find?_insert_own own) ⟨nofun, nofun⟩

/-- A `put` of a record does not store it and report a failure. -/
def Env.Tells (env : Env) (id : KeyId) : Prop :=
  ∀ error, env.putOutcome id ≠ .storedThenFailed error

/-- What a program that writes one record does to the others, and when it reports no
success. -/
structure Reports (env : Env) (world : World) (id : KeyId) (program : Prog CallError Unit) :
    Prop where
  others : ∀ other, other ≠ id →
    (program.run (handle env) world).2.keys.find? other = world.keys.find? other
  silent : Env.Tells env id → (program.run (handle env) world).1.isOk = false →
    (program.run (handle env) world).2.keys = world.keys

/-- A program that reports and leaves the world alone. -/
theorem Reports.unchanged {program : Prog CallError Unit}
    (same : (program.run (handle env) world).2 = world) : Reports env world id program where
  others other different := by rw [same]
  silent tells failed := by rw [same]

/-- The write at the end. -/
theorem Reports.put {record : KeyMetadata} (own : record.id = id) :
    Reports env world id (Program.mapErr CallError.lifecycle (storagePut record >>= fun stored =>
      Program.ofExcept (fun error : KeystoreError => error) stored)) := by
  have ran : ∀ answer middle, handle env (.put record) world = (answer, middle) →
      (Program.mapErr CallError.lifecycle (storagePut record >>= fun stored =>
        Program.ofExcept (fun error : KeystoreError => error) stored)).run (handle env) world =
        ((Program.ofExcept (fun error : KeystoreError => error) answer).run (handle env)
          middle |>.1.mapErr CallError.lifecycle, middle) := by
    intro answer middle put
    rw [run_mapErr, call_bind, run_perform, put]
    cases answer <;> rfl
  constructor
  · intro other different
    cases put : handle env (.put record) world with
    | mk answer middle =>
        rw [ran answer middle put]
        have kept : (handle env (.put record) world).2.keys.find? other = world.keys.find? other :=
          find?_handlePut_of_ne (own ▸ different)
        rwa [put] at kept
  · intro tells failed
    cases outcome : env.putOutcome record.id with
    | stored =>
        rw [ran (.ok ()) _ (by rw [handle, outcome]; rfl)] at failed
        cases failed
    | refused error =>
        rw [ran (.error error) world (by rw [handle, outcome]; rfl)]
    | storedThenFailed error => exact absurd (own ▸ outcome) (tells error)

/-- A first part that only reads. -/
theorem Reports.check {β : Type} {first : Prog KeystoreError β}
    {rest : β → Prog KeystoreError Unit} (reads : first.Uses Op.Reads)
    (later : ∀ value, first.run (handle env) world = (.ok value, world) →
      Reports env world id ((rest value).mapErr .lifecycle)) :
    Reports env world id ((first >>= rest).mapErr .lifecycle) := by
  have kept : (first.run (handle env) world).2 = world := run_of_reads reads
  cases ran : first.run (handle env) world with
  | mk outcome middle =>
      rw [ran] at kept
      obtain rfl : middle = world := kept
      have whole : ((first >>= rest).mapErr CallError.lifecycle).run (handle env) middle =
          ((andThen (handle env) rest (outcome, middle)).1.mapErr .lifecycle,
            (andThen (handle env) rest (outcome, middle)).2) := by
        rw [run_mapErr, run_bind, ran]
      cases outcome with
      | ok value =>
          have same : ((first >>= rest).mapErr CallError.lifecycle).run (handle env) middle =
              ((rest value).mapErr CallError.lifecycle).run (handle env) middle := by
            rw [whole, run_mapErr]
            rfl
          obtain ⟨others, silent⟩ := later value ran
          exact ⟨by rwa [same], by rwa [same]⟩
      | err error => exact .unchanged (by rw [whole]; rfl)
      | aborted why => exact .unchanged (by rw [whole]; rfl)

theorem utcNow_reads : (utcNow : Prog KeystoreError Nat).Uses Op.Reads := ⟨trivial, fun _ => trivial⟩

theorem revoke_reports (id : KeyId) : Reports env world id (Keystore.revoke id) := by
  refine Reports.check (get_reads id) fun record got => ?_
  have own : record.id = id := Table.key_of_find? (find?_of_get got)
  split
  · exact .unchanged rfl
  · refine Reports.check utcNow_reads fun revoked _ => ?_
    refine Reports.check utcNow_reads fun updated _ => ?_
    exact .put own

theorem destroy_reports (id : KeyId) : Reports env world id (Keystore.destroy id) := by
  refine Reports.check (get_reads id) fun record got => ?_
  have own : record.id = id := Table.key_of_find? (find?_of_get got)
  split
  · exact .unchanged rfl
  · refine Reports.check utcNow_reads fun destroyed _ => ?_
    refine Reports.check utcNow_reads fun updated _ => ?_
    refine Reports.check ⟨trivial, fun _ => trivial⟩ fun overwritten _ => ?_
    refine Reports.check uses_ofExcept fun _ _ => ?_
    exact .put own

theorem Service.Quiet.of_none {op : Service} (nothing : op.RegistersNothing)
    (none : op.call? = none) : op.Quiet :=
  ⟨nothing, fun call calls => by rw [none] at calls; cases calls⟩

theorem quiet_resolve (id : KeyId) : (Service.resolveDomainForKey id).Quiet := .of_none trivial rfl

theorem quiet_authorize (request : Core.Request) : (Service.authorize request).Quiet :=
  .of_none trivial rfl

theorem quiet_utcNow : Service.utcNow.Quiet := .of_none trivial rfl

/-- The routes whose operations are all quiet. -/
def Request.Quiet {code : AssertionCode} : Request code → Prop
  | .generateKey _ => False
  | .rotateKey _ => False
  | .revokeKey _ => False
  | .destroyKey _ => False
  | _ => True

theorem Request.quiet_of_actsBy {code : AssertionCode} {request : Request code} {op : Service}
    (quiet : request.Quiet) (acts : request.ActsBy op) : op.Quiet := by
  cases request <;> first
    | exact quiet.elim
    | (cases op <;> first
        | exact acts.elim
        | exact ⟨trivial, fun _ calls => by cases calls; trivial⟩)

theorem Request.route_quiet {code : AssertionCode} {request : Request code} (quiet : request.Quiet)
    (auth : AuthContext) : (request.route auth).Uses Service.Quiet := by
  apply (request.route_uses auth).mono
  rintro op (asks | acts)
  · exact .of_none asks.1 asks.2
  · exact quiet_of_actsBy quiet acts

/-- The writes of a key that is not retired are told as they happened, in every moment to
come. -/
def Heard (id : KeyId) (state : AppState × Moments) : Prop :=
  ¬ RetiredIn state.1.world.keys id → ∀ position, Env.Tells (state.2 position).env id

theorem keys_of_asks {op : Service} (asks : op.Asks) :
    (serve ks moment app op).2.world.keys = app.world.keys := by
  rcases serve_keys ks moment app op with unchanged | ⟨call, calls, -⟩
  · exact unchanged
  · rw [asks.2] at calls
    cases calls

/-- Asking keeps the agreement and what is known of the moments to come. -/
theorem asks_keep {op : Service} {state : AppState × Moments} (asks : op.Asks)
    (kept : Agreement state.1 ∧ Heard id state) :
    Agreement (answering ks op state).2.1 ∧ Heard id (answering ks op state).2 := by
  refine ⟨kept.1.serve _ _ op (.of_none asks.1 asks.2), ?_⟩
  intro live position
  apply kept.2
  have same : (answering ks op state).2.1.world.keys = state.1.world.keys := keys_of_asks asks
  rwa [same] at live

/-- A write that was acknowledged is told to the enforcer; one that was not left nothing
behind. -/
theorem Agreement.reported {program : Prog CallError Unit} (agree : Agreement app)
    (tells : ¬ RetiredIn app.world.keys id → Env.Tells moment.env id)
    (reports : Reports moment.env { app.world with now := moment.now } id program) :
    Agreement { (app.play moment program).2 with
      enforcer := app.enforcer.revokeKey id.text } ∧
    ((app.play moment program).1.isOk = false → Agreement (app.play moment program).2) := by
  have kept : ∀ other, other ≠ id → RetiredIn (app.play moment program).2.world.keys other →
      RetiredIn app.world.keys other := by
    rintro other different ⟨record, found, state⟩
    exact ⟨record, (reports.others other different).symm.trans found, state⟩
  constructor
  · intro other retired
    by_cases same : other = id
    · subst same
      exact .inl (Finset.mem_insert_self _ _)
    · rcases agree other (kept other same retired) with revoked | invalid
      · exact .inl (Finset.mem_insert_of_mem revoked)
      · exact .inr fun valid => invalid (Finset.mem_of_mem_erase valid)
  · intro failed other retired
    by_cases same : other = id
    · subst same
      by_cases already : RetiredIn app.world.keys other
      · exact agree other already
      · have unchanged := reports.silent (tells already) failed
        obtain ⟨record, found, state⟩ := retired
        refine agree other ⟨record, ?_, state⟩
        rw [← found]
        exact congrArg (fun keys : Keys => keys.find? other) unchanged.symm
    · exact agree other (kept other same retired)

section Routes

variable {auth : AuthContext} {state : AppState × Moments} {name : String}

/-- The end of a route that retires a key: the enforcer is told when it went well. -/
theorem ending_agrees {outcome : Outcome CallError Unit}
    (told : Agreement { state.1 with enforcer := state.1.enforcer.revokeKey name })
    (untold : outcome.isOk = false → Agreement state.1) :
    ((settle outcome : Handler (Except CallError Unit)) >>= fun ended =>
      match ended with
      | .ok () => ask (.revokeKey name)
      | .error error => .fail (err error.display)).Meets (alone (answering ks) fun _ _ => True) state
        fun final _ => Agreement final.1 := by
  cases outcome with
  | ok value => exact Meets.performAlone trivial told
  | err error => exact untold rfl
  | aborted why => exact untold rfl

theorem revokeKey_agrees (agree : Agreement state.1) (heard : Heard ⟨name⟩ state) :
    (revokeKey auth name).Meets (alone (answering ks) fun _ _ => True) state
      fun final _ => Agreement final.1 := by
  refine Meets.bindInvariant (authorizeDomainAccess_uses fun _ => ⟨trivial, rfl⟩)
    (fun state => Agreement state.1 ∧ Heard ⟨name⟩ state) (fun _ _ => asks_keep) (fun _ kept => kept.1)
    ⟨agree, heard⟩ ?_
  intro domain state kept
  refine Meets.bindInvariant (requireAuthorized_uses ⟨trivial, rfl⟩)
    (fun state => Agreement state.1 ∧ Heard ⟨name⟩ state) (fun _ _ => asks_keep) (fun _ kept => kept.1)
    kept ?_
  intro _ state kept
  obtain ⟨told, untold⟩ := kept.1.reported (fun live => kept.2 live 0) (revoke_reports ⟨name⟩)
  exact Meets.performAlone trivial (ending_agrees told untold)

theorem destroyKey_agrees (agree : Agreement state.1) (heard : Heard ⟨name⟩ state) :
    (destroyKey auth name).Meets (alone (answering ks) fun _ _ => True) state
      fun final _ => Agreement final.1 := by
  refine Meets.bindInvariant (authorizeDomainAccess_uses fun _ => ⟨trivial, rfl⟩)
    (fun state => Agreement state.1 ∧ Heard ⟨name⟩ state) (fun _ _ => asks_keep) (fun _ kept => kept.1)
    ⟨agree, heard⟩ ?_
  intro domain state kept
  obtain ⟨told, untold⟩ := kept.1.reported (fun live => kept.2 live 0) (destroy_reports ⟨name⟩)
  exact Meets.performAlone trivial (ending_agrees told untold)

/-- Registering a key that is not retired keeps the agreement. -/
theorem Agreement.registerKey {domain : Option String} (agree : Agreement app)
    (live : ¬ RetiredIn app.world.keys id) :
    Agreement { app with enforcer := app.enforcer.registerKey id.text domain } := by
  intro other retired
  rcases agree other retired with revoked | invalid
  · exact .inl revoked
  · refine .inr fun valid => ?_
    rcases Finset.mem_insert.mp valid with same | already
    · obtain rfl : other = id := congrArg KeyId.mk same
      exact live retired
    · exact invalid already

/-- What is registered at the end of a route. -/
theorem register_agrees {domain : Option String} {α : Type} (result : α)
    (kept : Agreement state.1 ∧ ¬ RetiredIn state.1.world.keys id) :
    ((ask (.registerKey id.text domain) >>= fun _ => .ret result : Handler α)).Meets
      (alone (answering ks) fun _ _ => True) state fun final _ => Agreement final.1 :=
  Meets.performAlone trivial (kept.1.registerKey kept.2)

/-- A created key is not retired. -/
def CreatedLive (state : AppState × Moments) (outcome : Outcome ApiError (Except String KeyId)) :
    Prop :=
  Agreement state.1 ∧ ∀ id, outcome = .ok (.ok id) → ¬ RetiredIn state.1.world.keys id

theorem created_live {program : Prog CallError KeyId} {moments : Moments}
    (agree : Agreement (app.play moment program).2)
    (live : ∀ {world id after}, program.run (handle moment.env) world = (.ok id, after) →
      ¬ RetiredIn after.keys id) :
    ((settle (app.play moment program).1 : Handler (Except CallError KeyId)) >>=
      fun created => .ret (created.mapError CallError.display)).Meets
        (alone (answering ks) fun _ _ => True) ((app.play moment program).2, moments)
        CreatedLive := by
  cases outcome : (app.play moment program).1 with
  | err error => exact ⟨agree, nofun⟩
  | aborted why => exact ⟨agree, nofun⟩
  | ok created =>
      refine ⟨agree, ?_⟩
      rintro id same
      cases same
      exact live (Prod.ext outcome rfl)

theorem createOfType_live {req : GenerateKeyReq} {keyType : KeyType} (agree : Agreement state.1) :
    (createOfType req keyType).Meets (alone (answering ks) fun _ _ => True) state CreatedLive := by
  unfold createOfType
  dsimp only
  split
  · cases req.parentId with
    | none => exact ⟨agree, nofun⟩
    | some parent =>
        have kept := agree.serve ks (state.2 0)
          (.generateSigningKey req.name (req.policyId.map PolicyId.mk) ⟨parent⟩)
          ⟨trivial, fun _ calls => by cases calls; trivial⟩
        exact Meets.performAlone trivial (created_live kept generateSigningKey_live)
  · have kept := agree.serve ks (state.2 0)
      (.generate req.name keyType (req.policyId.map PolicyId.mk) (req.parentId.map KeyId.mk))
      ⟨trivial, fun _ calls => by cases calls; trivial⟩
    exact Meets.performAlone trivial (created_live kept generate_live)

/-- Asking keeps a key from being retired. -/
theorem asks_keep_live {op : Service} (asks : op.Asks)
    (kept : Agreement state.1 ∧ ¬ RetiredIn state.1.world.keys id) :
    Agreement (answering ks op state).2.1 ∧
      ¬ RetiredIn (answering ks op state).2.1.world.keys id := by
  refine ⟨kept.1.serve _ _ op (.of_none asks.1 asks.2), ?_⟩
  have same : (answering ks op state).2.1.world.keys = state.1.world.keys := keys_of_asks asks
  rw [same]
  exact kept.2

theorem generateKey_agrees {req : GenerateKeyReq} (agree : Agreement state.1) :
    (generateKey auth req).Meets (alone (answering ks) fun _ _ => True) state
      fun final _ => Agreement final.1 := by
  refine Meets.bindInvariant uses_ofOption (fun state => Agreement state.1)
    (fun op _ quiet agree => agree.serve _ _ op quiet) (fun _ agree => agree) agree ?_
  intro keyType state agree
  refine Meets.bindInvariant (authorizeDomainAccess_uses quiet_resolve)
    (fun state => Agreement state.1) (fun op _ quiet agree => agree.serve _ _ op quiet)
    (fun _ agree => agree) agree ?_
  intro domain state agree
  refine Meets.bind ((createOfType_live agree).mono ?_)
  rintro state (created | error | why) live
  · cases created with
    | error error => exact live.1
    | ok id =>
        refine Meets.bindInvariant (domainToRegister_uses ⟨trivial, rfl⟩)
          (fun state => Agreement state.1 ∧ ¬ RetiredIn state.1.world.keys id)
          (fun _ _ => asks_keep_live) (fun _ kept => kept.1) ⟨live.1, live.2 id rfl⟩ ?_
        intro domain state kept
        exact register_agrees id kept
  · exact live.1
  · exact live.1

theorem rotateKey_agrees (agree : Agreement state.1) :
    (rotateKey auth name).Meets (alone (answering ks) fun _ _ => True) state
      fun final _ => Agreement final.1 := by
  refine Meets.bindInvariant (ask_uses quiet_utcNow) (fun state => Agreement state.1)
    (fun op _ quiet agree => agree.serve _ _ op quiet) (fun _ agree => agree) agree ?_
  intro now state agree
  refine Meets.bindInvariant (authorizeDomainAccess_uses quiet_resolve)
    (fun state => Agreement state.1) (fun op _ quiet agree => agree.serve _ _ op quiet)
    (fun _ agree => agree) agree ?_
  intro domain state agree
  refine Meets.bindInvariant (requireAuthorized_uses (quiet_authorize _))
    (fun state => Agreement state.1) (fun op _ quiet agree => agree.serve _ _ op quiet)
    (fun _ agree => agree) agree ?_
  intro _ state agree
  have later : Agreement (state.1.play (state.2 0) (ks.rotate ⟨name⟩)).2 :=
    agree.serve _ _ (.rotate ⟨name⟩) ⟨trivial, fun _ calls => by cases calls; trivial⟩
  refine Meets.performAlone trivial ?_
  change Program.Meets _ _ ((settle (state.1.play (state.2 0) (ks.rotate ⟨name⟩)).1).bind _) _
  cases outcome : (state.1.play (state.2 0) (ks.rotate ⟨name⟩)).1 with
  | ok id => exact register_agrees id ⟨later, rotate_live (Prod.ext outcome rfl)⟩
  | err error => exact later
  | aborted why => exact later

end Routes

section Runs

variable {code : AssertionCode} {hashApiKey : String → SizedBytes 32}

/-- A route keeps the agreement when the keystore reports its writes. -/
theorem Request.route_agrees {request : Request code} {auth : AuthContext} {moments : Moments}
    (agree : Agreement app)
    (heard : ∀ name, request = .revokeKey name ∨ request = .destroyKey name →
      Heard ⟨name⟩ (app, moments)) :
    Agreement ((request.route auth).run (answering ks) (app, moments)).2.1 := by
  have quietly : request.Quiet →
      Agreement ((request.route auth).run (answering ks) (app, moments)).2.1 := by
    intro quiet
    apply (Request.route_quiet quiet auth).invariant
      (fun state : AppState × Moments => Agreement state.1)
    · intro op state quiet agree
      exact agree.serve _ _ op quiet
    · exact agree
  have returning : ∀ {α : Type} {handler : Handler α} {body : α → Body code},
      (handler.Meets (alone (answering ks) fun _ _ => True) (app, moments)
        fun final _ => Agreement final.1) →
      Agreement ((handler >>= fun value => .ret (body value)).run (answering ks)
        (app, moments)).2.1 := by
    intro α handler body meets
    have kept := meets.runAlone
    rw [run_bind]
    generalize handler.run (answering ks) (app, moments) = ran at kept
    obtain ⟨value | error | why, final⟩ := ran
    · exact kept
    · exact kept
    · exact kept
  cases request with
  | generateKey req => exact returning (generateKey_agrees agree)
  | rotateKey name => exact returning (rotateKey_agrees agree)
  | revokeKey name => exact returning (revokeKey_agrees agree (heard name (.inl rfl)))
  | destroyKey name => exact returning (destroyKey_agrees agree (heard name (.inr rfl)))
  | _ => exact quietly trivial

/-- The event is told as it happens: a revocation or destruction does not store its record
and then report a failure, and a restart finds no retired key or cannot list the keys. -/
def Told (app : AppState) : Event code → Prop
  | .request arrival => ∀ name,
      arrival.request = .revokeKey name ∨ arrival.request = .destroyKey name →
        Heard ⟨name⟩ (app, arrival.moments)
  | .restart boot => (∃ error, (boot.moments 0).env.listFault = some error) ∨
      ∀ id, ¬ RetiredIn app.world.keys id
  | _ => True

theorem Arrival.agrees {arrival : Arrival code} (agree : Agreement app)
    (told : Told app (.request arrival)) : Agreement (arrival.run ks hashApiKey app).2 := by
  rw [Arrival.run]
  cases arrival.caller app with
  | error error => exact agree
  | ok entry =>
      have routed : Agreement ((arrival.request.route entry.context).run (answering ks)
          (app, arrival.moments)).2.1 := Request.route_agrees agree told
      have stored : ∀ changed saved, Agreement (app.withApiKeys changed saved) :=
        fun _ _ => agree
      simp only
      generalize arrival.request = request at routed
      cases request with
      | createApiKey req draw =>
          simp only [Request.answer]
          split
          · exact agree
          · exact stored _ _
      | revokeApiKey name saved =>
          simp only [Request.answer]
          split
          · exact agree
          · exact stored _ _
      | listApiKeys => exact agree
      | _ =>
          simp only [Request.answer, AppState.playRoute]
          exact routed

/-- The operations of a start leave the records alone. -/
theorem registerKeys_uses (listed : List KeyMetadata) :
    (registerKeys listed).Uses fun op => op.call? = none := by
  induction listed with
  | nil => trivial
  | cons record rest ih =>
      refine Uses.bind (domainToRegister_uses rfl) fun domain => ?_
      exact Uses.bind (ask_uses rfl) fun _ => ih

theorem initializeEnforcer_uses : initializeEnforcer.Uses fun op => op.call? = none := by
  refine Uses.bind (ask_uses rfl) fun listed => ?_
  cases listed with
  | ok listed => exact registerKeys_uses listed
  | error error => trivial

/-- A restart leaves the records alone. -/
theorem keys_buildApp (ks : Keystore) (boot : Boot) (app : AppState) :
    (buildApp ks boot app).world.keys = app.world.keys := by
  apply initializeEnforcer_uses.invariant
    fun state : AppState × Moments => state.1.world.keys = app.world.keys
  · intro op state asks same
    rcases serve_keys ks (state.2 0) state.1 op with unchanged | ⟨call, calls, -⟩
    · exact unchanged.trans same
    · rw [asks] at calls
      cases calls
  · rfl

theorem buildApp_agrees {boot : Boot}
    (told : (∃ error, (boot.moments 0).env.listFault = some error) ∨
      ∀ id, ¬ RetiredIn app.world.keys id) : Agreement (buildApp ks boot app) := by
  rcases told with ⟨error, fault⟩ | live
  · -- without a listing the enforcer knows no key at all
    have listing : ∀ fresh : AppState,
        (answering ks .listKeys (fresh, boot.moments)).1 = .error error := by
      intro fresh
      rw [answering, serve, fault]
      rfl
    intro id retired
    right
    rw [buildApp, AppState.playRoute, initializeEnforcer, call_bind, run_perform]
    rw [listing]
    exact Finset.notMem_empty _
  · intro id retired
    rw [keys_buildApp] at retired
    exact absurd retired (live id)

theorem Event.agrees {event : Event code} (agree : Agreement app) (told : Told app event) :
    Agreement (event.run ks hashApiKey app) := by
  cases event with
  | request arrival => exact Arrival.agrees agree told
  | touch name now saved => exact agree
  | sweep moment => exact agree.serve _ _ _ ⟨trivial, fun _ calls => by cases calls; trivial⟩
  | restart boot => exact buildApp_agrees told

end Runs

/-- No assertions. -/
def noAssertions : AssertionCode where
  Claims := Unit
  Assertion := Unit
  Verified := Unit
  buildUnsigned _ _ _ _ _ := .ok ()
  canonicalSigningInput _ := .ok []
  withSignature assertion _ := assertion
  verify _ _ _ := .ok ()

/-- A moment in which nothing fails. -/
def quietMoment (n : Nat) : Moment := ⟨0, quietEnv n, ⟨1, 0, 0⟩, ⟨0, 0⟩⟩

/-- A start with a configured admin. -/
def quietBoot : Boot where
  generation := 1
  ttlMs := 60000
  clockSkewMs := 5000
  bootstrapHash := some configuredHash
  bootstrapTime := ""
  bootstrapSaved := .ok ()
  replay := .memory ⟨10, []⟩
  moments _ := quietMoment 0

/-- The server after some events. -/
def serverAfter (events : List (Event noAssertions)) : AppState :=
  playServer plainKeystore (fun _ => configuredHash) (firstStart plainKeystore quietBoot) events

end Citadel.Api
