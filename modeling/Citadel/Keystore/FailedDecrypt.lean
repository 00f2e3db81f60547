import Citadel.Keystore.Interference

/-!
# What a failed decryption leaves behind

A decryption that fails leaves the stored records and the claims that still count as it
found them. What it may leave is a trace in the threat assessor: it reads the threat level,
which refreshes it, and when the envelope does not open it records an event. The policies
are adapted to the level, so a later decryption of another blob may be refused that would
have been accepted before. Nothing else comes between.

At Redis the claims are as they were as long as no reply misleads the server about its
claim.
-/

namespace Citadel

open Envelope Program Keystore

/-! ### The threat level is read once -/

/-- The contract of a call that reads the threat level at most once. The ghost tells whether
it has. -/
def levelOnce : Contract Op Op.Ret where
  Ghost := Bool
  Allows asked
    | .currentThreatLevel => asked = false
    | _ => True
  Expects _ _ _ := True
  after asked
    | .currentThreatLevel, _ => true
    | _, _ => asked

section LevelOnce

variable {ks : Keystore} {ε α β : Type} {asked : Bool}

theorem levelOnce_neutral {op : Op} (gets : op.Gets) :
    levelOnce.Allows asked op ∧ ∀ answer, levelOnce.after asked op answer = asked := by
  cases op with
  | get id => exact ⟨trivial, fun _ => rfl⟩
  | _ => exact gets.elim

/-- The rule for a part that loads records only. -/
theorem levelOnce_gets {program : Prog ε α} {continuation : α → Prog ε β}
    (gets : program.Uses Op.Gets)
    (rest : ∀ value, (continuation value).Meets levelOnce asked fun _ _ => True) :
    (program >>= continuation).Meets levelOnce asked fun _ _ => True := by
  refine Meets.bind ((Meets.ofUses gets fun _ => levelOnce_neutral).mono ?_)
  rintro state outcome rfl
  cases outcome with
  | ok value => exact rest value
  | err error => trivial
  | aborted why => trivial

theorem evaluateEffective_levelOnce (record : KeyMetadata) :
    (ks.evaluateEffective record : Prog ε (Option PolicyVerdict)).Meets levelOnce false
      fun _ _ => True := by
  unfold Keystore.evaluateEffective
  simp only [currentThreatLevel, utcNow, call_bind]
  refine ⟨rfl, fun level _ => ?_⟩
  dsimp only
  cases ks.effectivePolicyFor record level with
  | none => trivial
  | some policy =>
      refine ⟨trivial, fun now _ => ?_⟩
      dsimp only
      cases evaluate policy record now with
      | error why => trivial
      | ok verdict => trivial

theorem releaseAndFail_levelOnce {cacheKey : Bytes} :
    (releaseAndFail cacheKey : Prog String α).Meets levelOnce asked fun _ _ => True :=
  ⟨trivial, fun _ _ => trivial⟩

theorem openReporting_levelOnce {keyId domainId : KeyId} {version : KeyVersion}
    {ciphertext cacheKey : Bytes} {aad : Aad} {context : Context} :
    (ks.openReporting keyId version domainId ciphertext cacheKey aad context).Meets levelOnce asked
      fun _ _ => True := by
  apply levelOnce_gets (unwrapKeyVersionInner_gets _ _ _ _).attempt
  rintro (error | skBytes)
  · exact releaseAndFail_levelOnce
  · dsimp only
    split
    · exact releaseAndFail_levelOnce
    · split
      · exact ⟨trivial, fun _ _ => trivial⟩
      · trivial

theorem decryptReporting_levelOnce {blob : EncryptedBlob} {aad : Aad} {context : Context} :
    (ks.decryptReporting blob aad context).Meets levelOnce false fun _ _ => True := by
  apply levelOnce_gets (get_gets _).mapErr
  intro record
  split
  · trivial
  refine Meets.bind ((evaluateEffective_levelOnce record).mono ?_)
  rintro asked (verdict | error | why) -
  · dsimp only [bindPost]
    split
    · trivial
    apply levelOnce_gets uses_ofOption
    intro version
    apply levelOnce_gets uses_ofExcept
    intro ciphertext
    split
    · trivial
    apply levelOnce_gets (resolveDomainForKey_gets _).mapErr
    intro domainId
    apply levelOnce_gets uses_ofExcept
    intro nonce
    refine ⟨trivial, fun claimed _ => ?_⟩
    rcases claimed with problem | _ | _
    · trivial
    · trivial
    · exact openReporting_levelOnce
  · trivial
  · trivial

end LevelOnce

section Reading

variable {double : DoubleArithmetic} {ks : Keystore} {env : Env} {ε α : Type}
  {state : Monitored double}

/-- The environment in which the level is the one that a reading at this moment arrives at. -/
def Monitored.reading (state : Monitored double) (env : Env) : Env :=
  { env with level := (state.threat.readLevel state.world.now).1 }

theorem Monitored.reading_reliable (state : Monitored double) (reliable : env.Reliable) :
    (state.reading env).Reliable :=
  ⟨reliable.get, reliable.put, reliable.overwrite, reliable.list, reliable.flush⟩

/-- A call that reads the level at most once runs as it does at that level, and leaves the
assessor as it was or refreshed. -/
theorem run_reading {program : Prog ε α} (state : Monitored double) (env : Env)
    (once : program.Meets levelOnce false fun _ _ => True) :
    ∃ threat, (threat = state.threat ∨ threat = (state.threat.readLevel state.world.now).2) ∧
      program.run (handleMonitored env) state =
        ((program.run (handle (state.reading env)) state.world).1,
          ⟨(program.run (handle (state.reading env)) state.world).2, threat⟩) := by
  let related (asked : Bool) (left : Monitored double) (right : World) : Prop :=
    left.world = right ∧ right.now = state.world.now ∧
      left.threat = if asked then (state.threat.readLevel state.world.now).2 else state.threat
  have step : ∀ asked left right op, related asked left right → levelOnce.Allows asked op →
      (handleMonitored env op left).1 = (handle (state.reading env) op right).1 ∧
        levelOnce.Expects asked op (handleMonitored env op left).1 ∧
        related (levelOnce.after asked op (handleMonitored env op left).1)
          (handleMonitored env op left).2 (handle (state.reading env) op right).2 := by
    rintro asked ⟨world, threat⟩ right op ⟨rfl, sameTime, rfl⟩ allows
    have later := now_handle (state.reading env) op world
    cases op with
    | currentThreatLevel =>
        obtain rfl : asked = false := allows
        refine ⟨?_, trivial, rfl, sameTime, ?_⟩
        · exact congrArg (fun now => (state.threat.readLevel now).1) sameTime
        · exact congrArg (fun now => (state.threat.readLevel now).2) sameTime
    | _ => exact ⟨rfl, trivial, rfl, later.trans sameTime, rfl⟩
  obtain ⟨same, asked, ends, -, threat⟩ :=
    Meets.runBoth step once (⟨rfl, rfl, rfl⟩ : related false state state.world)
  refine ⟨(program.run (handleMonitored env) state).2.threat, ?_, Prod.ext same ?_⟩
  · rw [threat]
    cases asked with
    | false => exact .inl rfl
    | true => exact .inr rfl
  · rw [← ends]

/-- What a decryption may leave of the assessor: its reading refreshes it, and an envelope
that is tried and does not open is an event. -/
def Felt (ks : Keystore) (env : Env) (blob : EncryptedBlob) (aad : Aad) (context : Context)
    (state : Monitored double) (threat : ThreatAssessor double) : Prop :=
  ∃ refreshed, (refreshed = state.threat ∨
      refreshed = (state.threat.readLevel state.world.now).2) ∧
    (threat = refreshed ∨ Unopened ks (state.reading env) state.world blob aad context ∧
      threat = refreshed.recordEvent
        (.new .decryptionFailure (double.nearest 3) state.world.now) state.world.now)

/-- A decryption on a monitored keystore, told by the plain one at the level that is read. -/
structure RunsAsRead (ks : Keystore) (env : Env) (blob : EncryptedBlob) (aad : Aad)
    (context : Context) (state : Monitored double)
    (played : Outcome CallError CallValue × Monitored double) : Prop where
  world : played.2.world =
    ((ks.decrypt blob aad context).run (handle (state.reading env)) state.world).2
  ok : ∀ plaintext, played.1 = .ok (.plaintext plaintext) ↔
    ((ks.decrypt blob aad context).run (handle (state.reading env)) state.world).1 = .ok plaintext
  err : ∀ error, played.1 = .err error →
    ((ks.decrypt blob aad context).run (handle (state.reading env)) state.world).1 = .err error
  threat : Felt ks env blob aad context state played.2.threat

theorem decrypt_runsAsRead (ks : Keystore) (env : Env) (blob : EncryptedBlob) (aad : Aad)
    (context : Context) (state : Monitored double) :
    RunsAsRead ks env blob aad context state
      ((Call.decrypt blob aad context).runMonitored ks env state) := by
  obtain ⟨refreshed, reads, ran⟩ := run_reading state env
    (decryptReporting_levelOnce : (ks.decryptReporting blob aad context).Meets _ _ _)
  have sameTime := (uses_any (ks.decryptReporting blob aad context)).invariant
    (fun later => later.now = state.world.now)
    (fun op later _ same => (now_handle (state.reading env) op later).trans same) rfl
  have plain : (ks.decrypt blob aad context).run (handle (state.reading env)) state.world =
      ((andThen (handle (state.reading env)) (Program.ofOption "operation failed")
        ((ks.decryptReporting blob aad context).run (handle (state.reading env))
          state.world)).1.mapErr .decrypt,
        (andThen (handle (state.reading env)) (Program.ofOption "operation failed")
          ((ks.decryptReporting blob aad context).run (handle (state.reading env))
            state.world)).2) := by
    rw [decrypt_eq, run_mapErr, run_bind]
  simp only [Call.runMonitored, ran]
  cases played : (ks.decryptReporting blob aad context).run (handle (state.reading env))
      state.world with
  | mk outcome after =>
      rw [played] at sameTime plain
      rcases outcome with (_ | plaintext) | error | why
      · refine ⟨?_, ?_, ?_, refreshed, reads, .inr ⟨unopened_of_run played, ?_⟩⟩
        · rw [plain]
          rfl
        · rw [plain]
          intro _
          constructor <;> intro same <;> cases same
        · rw [plain]
          rintro _ ⟨rfl⟩
          rfl
        · change refreshed.recordEvent _ after.now = _
          rw [show after.now = state.world.now from sameTime]
      · refine ⟨?_, ?_, (fun _ same => by cases same), refreshed, reads, .inl rfl⟩
        · rw [plain]
          rfl
        · rw [plain]
          intro _
          constructor
          · rintro ⟨rfl⟩
            rfl
          · rintro ⟨rfl⟩
            rfl
      · refine ⟨?_, ?_, ?_, refreshed, reads, .inl rfl⟩
        · rw [plain]
          rfl
        · rw [plain]
          intro _
          constructor <;> intro same <;> cases same
        · rw [plain]
          rintro _ ⟨rfl⟩
          rfl
      · refine ⟨?_, ?_, (fun _ same => by cases same), refreshed, reads, .inl rfl⟩
        · rw [plain]
          rfl
        · rw [plain]
          intro _
          constructor <;> intro same <;> cases same

end Reading

/-! ### After a failure -/

section Failure

variable {double : DoubleArithmetic} {ks : Keystore} {env : Env} {blob : EncryptedBlob}
  {aad : Aad} {context : Context} {plaintext : Bytes} {state after : Monitored double}

/-- A decryption at some moment succeeds. -/
def Accepts (ks : Keystore) (now : Nat) (env : Env) (blob : EncryptedBlob) (aad : Aad)
    (context : Context) (plaintext : Bytes) (state : Monitored double) : Prop :=
  ((Call.decrypt blob aad context).runMonitored ks env (state.at now)).1 =
    .ok (.plaintext plaintext)

/-- Everything that a decryption looks for, but for the policy, is there, and no claim stands
in its way. -/
def Readable (ks : Keystore) (now : Nat) (blob : EncryptedBlob) (aad : Aad) (context : Context)
    (plaintext : Bytes) (world : World) : Prop :=
  SlotFree ks { world with now } blob ∧
    ∃ env, Decrypts ks env { world with now } blob aad context plaintext

/-- The policy of the key, adapted to the level that is read then, lets a decryption pass. -/
def Unexpired (ks : Keystore) (now : Nat) (blob : EncryptedBlob) (state : Monitored double) :
    Prop :=
  ∀ record, state.world.keys.find? ⟨blob.keyId⟩ = some record →
    NotExpired ks (state.threat.readLevel now).1 now record

/-- A blob is accepted exactly when it can be read and the policy lets it pass. -/
theorem accepts_iff {now : Nat} (reliable : env.Reliable) :
    Accepts ks now env blob aad context plaintext state ↔
      Readable ks now blob aad context plaintext state.world ∧ Unexpired ks now blob state := by
  have run := decrypt_runsAsRead ks env blob aad context (state.at now)
  rw [Accepts, run.ok, decrypt_eq_ok_iff_free ((state.at now).reading_reliable reliable)]
  constructor
  · rintro ⟨free, decrypts⟩
    refine ⟨⟨free, _, decrypts⟩, ?_⟩
    obtain ⟨found, -, unexpired, -⟩ := decrypts
    intro record stored
    cases found.symm.trans stored
    exact unexpired
  · rintro ⟨⟨free, other, decrypts⟩, unexpired⟩
    obtain ⟨found, usable, -, lookup, decodes, long, resolves, carries, unwraps, parses, opens⟩ :=
      decrypts
    exact ⟨free, found, usable, unexpired _ found, lookup, decodes, long, resolves, carries,
      unwraps, parses, opens⟩

theorem Readable.congr {world other : World} {now : Nat} (keys : other.keys = world.keys)
    (claims : other.replay.liveEntries now = world.replay.liveEntries now) :
    Readable ks now blob aad context plaintext other ↔
      Readable ks now blob aad context plaintext world := by
  have slots : SlotFree ks { other with now } blob ↔ SlotFree ks { world with now } blob := by
    rw [slotFree_iff, slotFree_iff, keys, claims]
  have finds : (∃ env, Decrypts ks env { other with now } blob aad context plaintext) ↔
      ∃ env, Decrypts ks env { world with now } blob aad context plaintext :=
    ⟨fun ⟨env, decrypts⟩ => ⟨env, decrypts.of_eq keys.symm rfl⟩,
      fun ⟨env, decrypts⟩ => ⟨env, decrypts.of_eq keys rfl⟩⟩
  rw [Readable, Readable, slots, finds]

/-- What a failed decryption leaves. -/
structure FailureLeaves (ks : Keystore) (env : Env) (blob : EncryptedBlob) (aad : Aad)
    (context : Context) (state after : Monitored double) : Prop where
  keys : after.world.keys = state.world.keys
  claims : after.world.replay.liveEntries state.world.now =
    state.world.replay.liveEntries state.world.now
  threat : Felt ks env blob aad context state after.threat
  /-- A later decryption sees no other difference than the assessor. -/
  alike : ∀ (later : Nat) (other : Env) (genuine : EncryptedBlob) (aad : Aad) (context : Context)
    (plaintext : Bytes), state.world.now ≤ later → other.Reliable →
    (Accepts ks later other genuine aad context plaintext after ↔
      Accepts ks later other genuine aad context plaintext { state with threat := after.threat })
  /-- What would have been accepted is accepted unless the policy, as it is adapted by then,
  does not let it pass. -/
  still : ∀ (later : Nat) (other : Env) (genuine : EncryptedBlob) (aad : Aad) (context : Context)
    (plaintext : Bytes), state.world.now ≤ later → other.Reliable →
    Accepts ks later other genuine aad context plaintext state →
    (Accepts ks later other genuine aad context plaintext after ↔
      Unexpired ks later genuine { state with threat := after.threat })

theorem failureLeaves {error : CallError}
    (ran : (Call.decrypt blob aad context).runMonitored ks env state = (.err error, after)) :
    FailureLeaves ks env blob aad context state after := by
  have run := decrypt_runsAsRead ks env blob aad context state
  rw [ran] at run
  have did : Decrypted ks state.world blob after.world (.err error : Outcome CallError Bytes) :=
    decrypted_of_run (Prod.ext (run.err error rfl) run.world.symm)
  have alike : ∀ (later : Nat) (other : Env) (genuine : EncryptedBlob) (aad : Aad)
      (context : Context) (plaintext : Bytes), state.world.now ≤ later → other.Reliable →
      (Accepts ks later other genuine aad context plaintext after ↔
        Readable ks later genuine aad context plaintext state.world ∧
          Unexpired ks later genuine { state with threat := after.threat }) := by
    intro later other genuine aad context plaintext le reliable
    have stillCount : after.world.replay.liveEntries later =
        state.world.replay.liveEntries later := did.clock.liveEntries_of_le le did.claims
    rw [accepts_iff reliable, Readable.congr did.keys stillCount, Unexpired, Unexpired, did.keys]
  refine ⟨did.keys, did.claims, run.threat, ?_, ?_⟩
  · intro later other genuine aad context plaintext le reliable
    rw [alike _ _ _ _ _ _ le reliable, accepts_iff reliable]
  · intro later other genuine aad context plaintext le reliable accepted
    rw [alike _ _ _ _ _ _ le reliable]
    exact and_iff_right ((accepts_iff reliable).mp accepted).1

end Failure

/-! ### Two failures and a genuine blob -/

/-- A policy that enforces a lifetime of a hundred days. -/
def hundredDays : KeyPolicy :=
  { dayLong with
    id := ⟨"hundred-days"⟩
    maxLifetime := some (fromSecs 8640000) }

/-- Ninety days. -/
def lateMoment : Nat := fromSecs 7776000

/-- One level up the lifetime is eighty days. -/
theorem adapt_hundredDays :
    (adapt hundredDays .low).maxLifetime = some (fromSecs 8640000) ∧
      (adapt hundredDays .guarded).maxLifetime = some (fromSecs 6912000) := by
  decide +kernel

/-- The event of a decryption that fails at that time. -/
def lateFailure : ThreatEvent exactArithmetic :=
  .new .decryptionFailure (exactArithmetic.nearest 3) lateMoment

/-- The level is low after one such event. -/
theorem late_failure : freshAssessor.UpToDate lateMoment ∧
    (freshAssessor.recordEvent lateFailure lateMoment).UpToDate lateMoment ∧
    (freshAssessor.recordEvent lateFailure lateMoment).storedLevel = .low := by
  refine ⟨?_, ?_, ?_⟩
  · exact ThreatAssessor.upToDate_iff.mpr (by decide +kernel)
  · exact ThreatAssessor.upToDate_iff.mpr (by decide +kernel)
  · decide +kernel

/-- It is up by one after two. -/
theorem late_failures :
    ((freshAssessor.recordEvent lateFailure lateMoment).recordEvent lateFailure
        lateMoment).UpToDate lateMoment ∧
      ((freshAssessor.recordEvent lateFailure lateMoment).recordEvent lateFailure
        lateMoment).storedLevel = .guarded := by
  constructor
  · exact ThreatAssessor.upToDate_iff.mpr (by decide +kernel)
  · decide +kernel

/-- A use that was counted leads nowhere else. -/
theorem Keystore.Recoverable.used {keys : Keys} {record : KeyMetadata} {now levels : Nat}
    {skip : Bool} {version : KeyVersion} (stored : keys.find? record.id = some record)
    (recoverable : Recoverable keys skip levels version) :
    Recoverable (keys.insert (usedRecord record now)) skip levels version := by
  induction recoverable with
  | master wrappedBy => exact .master wrappedBy
  | @sealed levels version parentId number parent parentVersion wrappedBy wrappedAt found live
      readable lookup _ ih =>
      by_cases own : (⟨parentId⟩ : KeyId) = (usedRecord record now).id
      · rw [own] at found
        cases stored.symm.trans found
        have counted : (keys.insert (usedRecord record now)).find? ⟨parentId⟩ =
            some (usedRecord record now) := by
          rw [own]
          exact find?_insert_own rfl
        exact .sealed wrappedBy wrappedAt counted live readable lookup ih
      · refine .sealed wrappedBy wrappedAt ?_ live readable lookup ih
        exact (Table.find?_insert_of_ne _ own).trans found

/-- A blob names the version it was sealed to. -/
theorem Keystore.Encrypts.keyVersion {ks : Keystore} {env : Env} {world after : World}
    {keyId : KeyId} {plaintext : Bytes} {aad : Aad} {context : Context} {blob : EncryptedBlob}
    {record : KeyMetadata}
    (encrypted : Encrypts ks env world keyId plaintext aad context blob after)
    (found : world.keys.find? keyId = some record) : blob.keyVersion = record.currentVersion := by
  cases encrypted with
  | intro stored =>
      cases found.symm.trans stored
      rfl

/-- A data key under that policy that has encrypted one blob, which is read back as long as
the policy lets it. -/
structure KeptUnder (world : World) (blob : EncryptedBlob) (record : KeyMetadata) : Prop where
  reachable : Reachable (keystoreUnder hundredDays) anyStep world
  replay : world.replay = .memory ⟨1, []⟩
  encrypted : ∃ origin, Encrypts (keystoreUnder hundredDays) (quietEnv 4) origin ⟨blob.keyId⟩ [1]
    ⟨[]⟩ ⟨[]⟩ blob world
  found : world.keys.find? ⟨blob.keyId⟩ = some record
  active : record.state = .active
  since : record.activatedAt = some 0
  bound : record.policyId = some ⟨"hundred-days"⟩
  reads : ∀ env later, later.keys = world.keys →
    NotExpired (keystoreUnder hundredDays) env.level later.now record →
      Decrypts (keystoreUnder hundredDays) env later blob ⟨[]⟩ ⟨[]⟩ [1]

/-- The policy that is in force at a level. -/
theorem effectivePolicyFor_hundredDays {record : KeyMetadata} (level : ThreatLevel)
    (bound : record.policyId = some ⟨"hundred-days"⟩) :
    (keystoreUnder hundredDays).effectivePolicyFor record level =
      some (adapt hundredDays level) := by
  rw [effectivePolicyFor, bound]
  rfl

/-- Under a hundred days at the lowest level the policy lets everything pass. -/
theorem passes_hundredDays {record : KeyMetadata} {now : Nat} (active : record.state = .active)
    (since : record.activatedAt = some 0) (bound : record.policyId = some ⟨"hundred-days"⟩)
    (young : now < fromSecs 8640000) : Passes (keystoreUnder hundredDays) .low now record := by
  have lasts : ∀ limit, (adapt hundredDays .low).maxLifetime = some limit →
      limit = fromSecs 8640000 := fun limit limited =>
    Option.some.inj (limited.symm.trans adapt_hundredDays.1)
  have within : (adapt hundredDays .low).Young ((now : Int) - (0 : Nat)) := by
    refine ⟨nofun, fun _ limit limited => ?_⟩
    rw [lasts limit limited]
    have whole : chronoFromStd (fromSecs 8640000) = fromSecs 8640000 := by decide
    rw [whole]
    omega
  have logs : (adapt hundredDays .low).LogsPercentage := by
    intro _ limit limited
    rw [lasts limit limited]
    decide
  obtain ⟨verdict, evaluated, passes⟩ := evaluate_of_young active since within logs nofun
  refine ⟨some verdict, ?_, passes⟩
  rw [verdictAt, effectivePolicyFor_hundredDays .low bound]
  exact congrArg (Except.map some) evaluated

theorem exists_keptUnder : ∃ world blob record, KeptUnder world blob record := by
  obtain ⟨start, record, version, reached, replay, line⟩ := exists_governedLine
    (keystoreUnder_growable hundredDays) (.inr rfl) ⟨"hundred-days"⟩ (.memory ⟨1, []⟩)
    fun _ _ _ => trivial
  obtain ⟨blob, next, encrypted⟩ := line.encrypts reached
    (passes_hundredDays line.governed.active line.governed.activatedAt line.governed.policyId
      (by decide))
  obtain ⟨sound, emptied⟩ := next.sound transparent_lawful
  have own : (usedRecord record 0).id = keyNumbered 3 := line.governed.id
  have stored : (start.keys.insert (usedRecord record 0)).find? (keyNumbered 3) =
      some (usedRecord record 0) := find?_insert_own own
  have named : (⟨blob.keyId⟩ : KeyId) = keyNumbered 3 := by
    rw [(encrypted.later encrypted.extends).1]
  have numbered : (usedRecord record 0).getVersion blob.keyVersion = some version := by
    rw [encrypted.keyVersion line.found]
    exact line.governed.current
  have chain : Recoverable (start.keys.insert (usedRecord record 0)) false (maxUnwrapDepth + 1)
      version := (line.chain false).used (line.governed.id ▸ line.found)
  refine ⟨_, blob, usedRecord record 0, next, replay, ⟨_, named ▸ encrypted⟩, named ▸ stored,
    line.governed.active, line.governed.activatedAt, line.governed.policyId, ?_⟩
  intro env later same unexpired
  have kept : Extends start.keys later.keys := same ▸ encrypted.extends
  change later.keys = start.keys.insert (usedRecord record 0) at same
  change Sound _ (start.keys.insert (usedRecord record 0)) at sound
  change Emptied (start.keys.insert (usedRecord record 0)) at emptied
  rw [← same] at sound emptied stored chain
  exact (encrypted.decrypts_iff transparent_lawful kept sound emptied stored numbered).mpr
    ⟨by rw [show (usedRecord record 0).state = .active from line.governed.active]; rfl, unexpired,
      chain⟩

section Kept

variable {world : World} {blob : EncryptedBlob} {record : KeyMetadata}
  {state : Monitored exactArithmetic}

/-- Until the hundred days are over the lowest level lets the key pass. -/
theorem KeptUnder.unexpired (kept : KeptUnder world blob record) :
    NotExpired (keystoreUnder hundredDays) .low lateMoment record := by
  obtain ⟨verdict, evaluated, passes⟩ :=
    passes_hundredDays kept.active kept.since kept.bound (by decide : lateMoment < _)
  refine ⟨verdict, evaluated, ?_⟩
  cases verdict with
  | none => rfl
  | some verdict =>
      cases verdict with
      | expired ageDays limitDays => cases passes
      | _ => rfl

/-- One level up it is past its lifetime. -/
theorem KeptUnder.expired (kept : KeptUnder world blob record) :
    ¬ NotExpired (keystoreUnder hundredDays) .guarded lateMoment record := by
  rintro ⟨verdict, evaluated, unexpired⟩
  have outlived : Outlived (keystoreUnder hundredDays) .guarded lateMoment record :=
    ⟨kept.active, _, _, 0, effectivePolicyFor_hundredDays .guarded kept.bound, rfl,
      adapt_hundredDays.2, kept.since, by decide⟩
  obtain ⟨ageDays, limitDays, judged⟩ := outlived.expired
  rw [judged] at evaluated
  cases evaluated
  cases unexpired

/-- No claim stands in the way. -/
theorem KeptUnder.readable (kept : KeptUnder world blob record)
    (keys : state.world.keys = world.keys)
    (claims : state.world.replay.liveEntries lateMoment = []) :
    Readable (keystoreUnder hundredDays) lateMoment blob ⟨[]⟩ ⟨[]⟩ [1] state.world := by
  constructor
  · rw [slotFree_iff]
    intro key _
    rw [show ({ state.world with now := lateMoment } : World).replay.liveEntries lateMoment = []
      from claims]
    rfl
  · exact ⟨quietEnv 7, kept.reads _ _ keys kept.unexpired⟩

/-- The blob is accepted exactly when the level that is read is one at which the key has not
expired. -/
theorem KeptUnder.accepts_iff (kept : KeptUnder world blob record)
    (keys : state.world.keys = world.keys)
    (claims : state.world.replay.liveEntries lateMoment = []) :
    Accepts (keystoreUnder hundredDays) lateMoment (quietEnv 7) blob ⟨[]⟩ ⟨[]⟩ [1] state ↔
      NotExpired (keystoreUnder hundredDays) (state.threat.readLevel lateMoment).1 lateMoment
        record := by
  rw [Citadel.accepts_iff (quietEnv_reliable 7), and_iff_right (kept.readable keys claims),
    Unexpired, keys]
  constructor
  · exact fun all => all record kept.found
  · intro unexpired other found
    cases kept.found.symm.trans found
    exact unexpired

/-- With a context that is too long the envelope is tried and does not open. -/
theorem KeptUnder.unopened (kept : KeptUnder world blob record) {env : Env} {later : World}
    (reliable : env.Reliable) (keys : later.keys = world.keys) (moment : later.now = lateMoment)
    (low : env.level = .low) (claims : later.replay.liveEntries lateMoment = []) :
    Unopened (keystoreUnder hundredDays) env later blob ⟨[]⟩ longContext := by
  obtain ⟨origin, encrypted⟩ := kept.encrypted
  have unexpired : NotExpired (keystoreUnder hundredDays) env.level later.now record := by
    rw [low, moment]
    exact kept.unexpired
  obtain ⟨found, usable, unexpired, lookup, decodes, long, resolves, carries, unwraps, parses, -⟩ :=
    kept.reads env later keys unexpired
  have longer : WireV2.maxContextLen < longContext.inner.length := by
    rw [show longContext.inner = List.replicate 4097 0 from rfl, List.length_replicate]
    decide
  refine .intro found usable unexpired lookup decodes long resolves carries ?_ unwraps parses
    (open_of_long_context (encrypted.magic decodes) longer)
  rw [reliable.flush]
  apply ReplayStore.claim_eq_true
  rw [moment, claims]
  rfl

/-- The step that tries the blob under that context. -/
def wrongContextStep (blob : EncryptedBlob) : MonitoredStep exactArithmetic :=
  ⟨lateMoment, quietEnv 7, .call (.decrypt blob ⟨[]⟩ longContext)⟩

/-- It fails and is recorded. -/
theorem KeptUnder.fails (kept : KeptUnder world blob record)
    (keys : state.world.keys = world.keys)
    (upToDate : state.threat.UpToDate lateMoment) (low : state.threat.storedLevel = .low)
    (claims : state.world.replay.liveEntries lateMoment = []) :
    ((Call.decrypt blob ⟨[]⟩ longContext).runMonitored (keystoreUnder hundredDays) (quietEnv 7)
        (state.at lateMoment)).1 = .err (.decrypt "operation failed") ∧
      Recorded (state.at lateMoment)
        ((wrongContextStep blob).play (keystoreUnder hundredDays) state) := by
  have unopened : Unopened (keystoreUnder hundredDays) ((state.at lateMoment).env (quietEnv 7))
      (state.at lateMoment).world blob ⟨[]⟩ longContext :=
    kept.unopened ((state.at lateMoment).env_reliable (quietEnv_reliable 7)) keys rfl low claims
  refine ⟨?_, recorded_of_unopened (quietEnv_reliable 7) upToDate unopened⟩
  have none := run_of_unopened ((state.at lateMoment).env_reliable (quietEnv_reliable 7)) unopened
  have settled : (state.at lateMoment).threat.UpToDate (state.at lateMoment).world.now := upToDate
  simp only [Call.runMonitored, run_monitored settled, none, settleReport]

end Kept

/-- The blob is tried twice under that context, and both times it fails. After the first
failure it is still accepted, after the second it is not. -/
structure FailsTwice (world : World) (blob : EncryptedBlob)
    (once twice : Monitored exactArithmetic) : Prop where
  first : (Call.decrypt blob ⟨[]⟩ longContext).runMonitored (keystoreUnder hundredDays)
    (quietEnv 7) (Monitored.at ⟨world, freshAssessor⟩ lateMoment) =
      (.err (.decrypt "operation failed"), once)
  second : (Call.decrypt blob ⟨[]⟩ longContext).runMonitored (keystoreUnder hundredDays)
    (quietEnv 7) (once.at lateMoment) = (.err (.decrypt "operation failed"), twice)
  accepted : Accepts (keystoreUnder hundredDays) lateMoment (quietEnv 7) blob ⟨[]⟩ ⟨[]⟩ [1] once
  refused : ¬ Accepts (keystoreUnder hundredDays) lateMoment (quietEnv 7) blob ⟨[]⟩ ⟨[]⟩ [1] twice

theorem KeptUnder.exists_failsTwice {world : World} {blob : EncryptedBlob} {record : KeyMetadata}
    (kept : KeptUnder world blob record) : ∃ once twice, FailsTwice world blob once twice := by
  have unclaimed : world.replay.liveEntries lateMoment = [] := by
    rw [kept.replay]
    rfl
  obtain ⟨failed, recorded⟩ : _ ∧ Recorded (Monitored.at ⟨world, freshAssessor⟩ lateMoment) _ :=
    kept.fails rfl late_failure.1 rfl unclaimed
  generalize played : (wrongContextStep blob).play (keystoreUnder hundredDays)
    ⟨world, freshAssessor⟩ = once at recorded
  have threat : once.threat = freshAssessor.recordEvent lateFailure lateMoment := recorded.threat
  have keys : once.world.keys = world.keys := recorded.keys
  have claims : once.world.replay.liveEntries lateMoment = [] := recorded.claims.trans unclaimed
  obtain ⟨failedAgain, recordedAgain⟩ := kept.fails keys (threat ▸ late_failure.2.1)
    (threat ▸ late_failure.2.2) claims
  generalize playedAgain : (wrongContextStep blob).play (keystoreUnder hundredDays) once = twice
    at recordedAgain
  have threatAgain : twice.threat = (freshAssessor.recordEvent lateFailure lateMoment).recordEvent
      lateFailure lateMoment := by
    rw [← threat]
    exact recordedAgain.threat
  refine ⟨once, twice, Prod.ext failed played, Prod.ext failedAgain playedAgain, ?_, ?_⟩
  · rw [kept.accepts_iff keys claims, threat, late_failure.2.1.readLevel, late_failure.2.2]
    exact kept.unexpired
  · rw [kept.accepts_iff (recordedAgain.keys.trans keys) (recordedAgain.claims.trans claims),
      threatAgain, late_failures.1.readLevel, late_failures.2]
    exact kept.expired

/-! ### A lost reply -/

section Lost

variable {keys : Keys} {isKey : Bytes → Prop}

/-- A call that gets to its claim on a server of its own gets there at Redis. -/
theorem reaches_at_redis (store : RedisReplayStore) {slot : Slot} {ε α : Type}
    {program stop : Prog ε α} {world after : World} {cluster : Cluster} {key : Bytes}
    {next : (Op.claim key).Ret → Prog ε α} {post : Slot → Outcome ε α → Prop}
    (meets : program.Meets (claiming keys isKey) slot post)
    (reaches : Program.Reaches (handle (quietEnv 4)) program world stop after)
    (claims : stop = .perform (.claim key) next) (at0 : world.now = 0) (stored : world.keys = keys)
    (same : cluster.keys = keys) :
    slot = .unclaimed ∧ Program.Reaches (Cluster.serve store) program cluster stop cluster := by
  induction reaches generalizing slot with
  | refl =>
      subst claims
      exact ⟨meets.1.1, .refl⟩
  | @step op continuation state stop after rest ih =>
      have expected : op.ReadsFrom keys (handle (quietEnv 4) op state).1 :=
        stored ▸ reads_quiet op state
      have alike : (⟨0, cluster.keys, state.replay⟩ : World) = state := by
        rw [same, ← stored, ← at0]
      have served : op.Reads → cluster.serve store op =
          ((handle (quietEnv 4) op state).1, cluster) := by
        intro reads
        rw [serve_reads reads state.replay, alike]
      have goesOn := ih (meets.2 _ expected) claims ((now_handle (quietEnv 4) op state).trans at0)
      cases op with
      | put record => exact meets.1.elim
      | claim other =>
          obtain ⟨unclaimed, -⟩ := goesOn stored
          exact absurd unclaimed (Slot.see_claim_ne _)
      | release other =>
          obtain ⟨unclaimed, -⟩ := goesOn stored
          cases unclaimed
      | _ =>
          obtain ⟨unclaimed, later⟩ := goesOn stored
          refine ⟨unclaimed, .step ?_⟩
          rw [served trivial]
          exact later

/-- Redis executes a claim, and the reply is lost: the call fails, and nobody holds the claim
that is left at Redis. -/
theorem exists_lost_claim (store : RedisReplayStore) :
    ∃ (blob : EncryptedBlob) (cluster : Cluster) (trace : ClusterTrace Bool)
        (pool : ClusterPool Bool) (key : Bytes),
      Pool.Runs (clusterWorld store) (waitingCluster blob cluster) trace pool ∧
      Returned trace false (.err (.decrypt "operation failed")) ∧
      ¬ cluster.redis.expiry.Taken pool.shared.redis.now (store.redisKey key) ∧
      pool.shared.redis.expiry.Taken pool.shared.redis.now (store.redisKey key) := by
  obtain ⟨world, blob, -, -, zero, -, -, -, -, -, -, reads⟩ := exists_readable (.memory ⟨10, []⟩)
  obtain ⟨record, version, ciphertext, domainId, nonce, -, -, presents, -⟩ :=
    (reads world rfl).presents
  let cluster : Cluster := ⟨world.keys, 0, fun _ => 0⟩
  have reaches := presents.reaches (quietEnv_reliable 4) ⟨[]⟩ ⟨[]⟩ 0
  generalize presentedKey plainKeystore blob ciphertext domainId nonce = key at reaches
  have meets : ((Call.decrypt blob ⟨[]⟩ ⟨[]⟩).prog plainKeystore 0).Meets
      (claiming world.keys (ReplayKey plainKeystore world.keys blob)) .unclaimed
      fun _ _ => True := by
    refine Meets.bind ((decrypt_settles blob ⟨[]⟩ ⟨[]⟩).mono ?_)
    rintro slot (plaintext | error | why) - <;> trivial
  have same : cluster.keys = world.keys := rfl
  have arrives := (reaches_at_redis store meets reaches rfl zero rfl same).2
  have answers : ∀ op state, (clusterWorld store).Answers state op (state.serve store op).1
      (state.serve store op).2 := fun op state => answers_serve op state
  have begins : Pool.Runs (clusterWorld store) (waitingCluster blob cluster : ClusterPool Bool) []
    _ := .refl
  obtain ⟨steps, arrived, -⟩ := begins.reach answers false rfl arrives
  let taken : Cluster := { cluster with redis.expiry :=
    (cluster.redis.expiry.take (store.redisKey key) (0 + claimTtl)) }
  have free : ¬ cluster.redis.expiry.Taken 0 (store.redisKey key) := Nat.lt_irrefl 0
  have lost : (clusterWorld store).Answers cluster (.claim key) (store.claimAnswer (.error ""))
      taken := ⟨.error "", taken.redis, .inr ⟨free, rfl⟩, rfl, rfl⟩
  have claimed := arrived.step (.perform (Function.update_self _ _ _) lost)
  have failed := claimed.step (.return (Function.update_self _ _ _) rfl)
  have ends : taken.redis.expiry (store.redisKey key) = 0 + claimTtl := Function.update_self _ _ _
  refine ⟨blob, cluster, _, _, key, failed, ⟨taken, by simp⟩, free, ?_⟩
  exact (show 0 < 0 + claimTtl by decide).trans_eq ends.symm

end Lost

/-! ### Failures that leave nothing -/

/-- A request for a version that the key does not have fails before anything is claimed. -/
theorem served_missing {blob : EncryptedBlob} {record : KeyMetadata} {cluster : Cluster}
    (store : RedisReplayStore) (found : cluster.keys.find? ⟨blob.keyId⟩ = some record)
    (active : record.state = .active) (unbound : record.policyId = none)
    (single : record.getVersion 2 = none) :
    ((Call.decrypt { blob with keyVersion := 2 } ⟨[]⟩ ⟨[]⟩).prog plainKeystore 0).run
      (Cluster.serve store) cluster = (.err (.decrypt "operation failed"), cluster) := by
  have present : (Keystore.get ⟨blob.keyId⟩).run (Cluster.serve store) cluster =
      (.ok record, cluster) := by
    simp [Keystore.get, Cluster.serve, handle, faulty, quietEnv, found, Program.ofExcept,
      Program.ofOption]
  have evaluated : (plainKeystore.evaluateEffective record : Prog String _).run
      (Cluster.serve store) cluster = (.ok none, cluster) := by
    simp [evaluateEffective, currentThreatLevel, effectivePolicyFor, unbound, Cluster.serve]
  simp [Call.prog, Keystore.decrypt, run_bind, run_mapErr, present, Outcome.mapErr, active,
    KeyState.canDecrypt, evaluated, single, Program.ofOption]

/-- Two servers ask for such a version, one after the other, and neither reply is lost. -/
theorem exists_failed_at_redis (store : RedisReplayStore) :
    ∃ (blob : EncryptedBlob) (cluster : Cluster) (trace : ClusterTrace Bool)
        (pool : ClusterPool Bool),
      Pool.Runs (heardWorld store) (waitingCluster blob cluster) trace pool ∧
      ∀ caller, ∃ error, Returned trace caller (.err error) := by
  obtain ⟨world, blob, record, -, -, -, found, active, unbound, single, -, -⟩ :=
    exists_readable (.memory ⟨10, []⟩)
  let cluster : Cluster := ⟨world.keys, 0, fun _ => 0⟩
  have answers : ∀ op state, (heardWorld store).Answers state op (state.serve store op).1
      (state.serve store op).2 := fun op state => ⟨answers_serve op state, heard_serve op state⟩
  have refused := served_missing store (show cluster.keys.find? _ = _ from found) active unbound
    single
  have begins : Pool.Runs (heardWorld store)
      (waitingCluster { blob with keyVersion := 2 } cluster : ClusterPool Bool) [] _ := .refl
  have waits : ∀ caller : Bool, (waitingCluster { blob with keyVersion := 2 } cluster).thread
      caller = .running ((Call.decrypt { blob with keyVersion := 2 } ⟨[]⟩ ⟨[]⟩).prog
        plainKeystore 0) := fun _ => rfl
  obtain ⟨firstSteps, first, failed, -⟩ := begins.finish answers (waits false)
  rw [show (waitingCluster { blob with keyVersion := 2 } cluster : ClusterPool Bool).shared =
    cluster from rfl, refused] at first failed
  obtain ⟨secondSteps, second, failedToo, -⟩ :=
    first.finish answers ((Function.update_of_ne (by decide) _ _).trans (waits true))
  rw [refused] at failedToo
  refine ⟨{ blob with keyVersion := 2 }, cluster, _, _, second, ?_⟩
  rintro (_ | _)
  · exact ⟨_, failed.append secondSteps⟩
  · exact ⟨_, failedToo⟩

/-- A decryption that fails leaves the records and the claims that still count as they were,
and a later decryption is told by nothing but the assessor that there was one. Decryptions
that all fail leave the records and the claims at Redis as they were, as long as no reply is
misleading. -/
theorem failed_decrypt_leaves (ks : Keystore) :
    (∀ {double : DoubleArithmetic} (now : Nat) (env : Env) (blob : EncryptedBlob) (aad : Aad)
        (context : Context) (state after : Monitored double) (error : CallError),
      (Call.decrypt blob aad context).runMonitored ks env (state.at now) = (.err error, after) →
        FailureLeaves ks env blob aad context (state.at now) after) ∧
    ∀ {ι : Type} [DecidableEq ι] (store : RedisReplayStore) (blobs : ι → EncryptedBlob)
        (start pool : ClusterPool ι) (trace : ClusterTrace ι), ClusterDecryptors ks blobs start →
      Pool.Runs (heardWorld store) start trace pool →
      (∀ caller, ∃ error, Returned trace caller (.err error)) →
        pool.shared.keys = start.shared.keys ∧ ∀ key,
          (pool.shared.redis.expiry.Taken pool.shared.redis.now (store.redisKey key) ↔
            start.shared.redis.expiry.Taken pool.shared.redis.now (store.redisKey key)) :=
  ⟨fun _ _ _ _ _ _ _ _ ran => failureLeaves ran,
    fun _ _ _ _ _ decryptors runs failed => decryptors.failed_leave runs failed⟩

/-- After one failure the blob is still accepted, and two failures at Redis leave its claims as
they were. -/
theorem blob_accepted_after_failure :
    (∃ (world : World) (blob : EncryptedBlob) (once : Monitored exactArithmetic),
      Reachable (keystoreUnder hundredDays) anyStep world ∧
      (Call.decrypt blob ⟨[]⟩ longContext).runMonitored (keystoreUnder hundredDays) (quietEnv 7)
        (Monitored.at ⟨world, freshAssessor⟩ lateMoment) =
          (.err (.decrypt "operation failed"), once) ∧
      FailureLeaves (keystoreUnder hundredDays) (quietEnv 7) blob ⟨[]⟩ longContext
        (Monitored.at ⟨world, freshAssessor⟩ lateMoment) once ∧
      Accepts (keystoreUnder hundredDays) lateMoment (quietEnv 7) blob ⟨[]⟩ ⟨[]⟩ [1] once) ∧
    ∃ (blob : EncryptedBlob) (cluster : Cluster) (trace : ClusterTrace Bool)
        (pool : ClusterPool Bool),
      Pool.Runs (heardWorld defaultRedis) (waitingCluster blob cluster) trace pool ∧
      (∀ caller, ∃ error, Returned trace caller (.err error)) ∧
      pool.shared.keys = cluster.keys ∧ ∀ key,
        (pool.shared.redis.expiry.Taken pool.shared.redis.now (defaultRedis.redisKey key) ↔
          cluster.redis.expiry.Taken pool.shared.redis.now (defaultRedis.redisKey key)) := by
  constructor
  · obtain ⟨world, blob, record, kept⟩ := exists_keptUnder
    obtain ⟨once, twice, fails⟩ := kept.exists_failsTwice
    exact ⟨world, blob, once, kept.reachable, fails.first, (failed_decrypt_leaves
      (keystoreUnder hundredDays)).1 lateMoment (quietEnv 7) blob ⟨[]⟩ longContext _ once _
        fails.first, fails.accepted⟩
  · obtain ⟨blob, cluster, trace, pool, runs, failed⟩ := exists_failed_at_redis defaultRedis
    exact ⟨blob, cluster, trace, pool, runs, failed, (failed_decrypt_leaves plainKeystore).2
      defaultRedis (fun _ => blob) _ pool trace (fun _ => ⟨⟨[]⟩, ⟨[]⟩, 0, rfl⟩) runs failed⟩

/-- A failed decryption can be felt. Two failures raise the threat level, and a genuine blob
that would have been accepted is refused; and where Redis is shared, a claim may stay behind
whose reply was lost. -/
theorem failures_are_felt :
    (∃ (world origin : World) (blob : EncryptedBlob) (once twice : Monitored exactArithmetic),
      Reachable (keystoreUnder hundredDays) anyStep world ∧ world.replay.entries = [] ∧
      Encrypts (keystoreUnder hundredDays) (quietEnv 4) origin ⟨blob.keyId⟩ [1] ⟨[]⟩ ⟨[]⟩ blob
        world ∧
      FailsTwice world blob once twice) ∧
    ∃ (blob : EncryptedBlob) (cluster : Cluster) (trace : ClusterTrace Bool)
        (pool : ClusterPool Bool) (key : Bytes),
      Pool.Runs (clusterWorld defaultRedis) (waitingCluster blob cluster) trace pool ∧
      Returned trace false (.err (.decrypt "operation failed")) ∧
      ¬ cluster.redis.expiry.Taken pool.shared.redis.now (defaultRedis.redisKey key) ∧
      pool.shared.redis.expiry.Taken pool.shared.redis.now (defaultRedis.redisKey key) := by
  obtain ⟨world, blob, record, kept⟩ := exists_keptUnder
  obtain ⟨origin, encrypted⟩ := kept.encrypted
  obtain ⟨once, twice, fails⟩ := kept.exists_failsTwice
  exact ⟨⟨world, origin, blob, once, twice, kept.reachable, by rw [kept.replay]; rfl, encrypted,
    fails⟩, exists_lost_claim defaultRedis⟩

end Citadel
