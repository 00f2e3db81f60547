import Citadel.Keystore.Authorized
import Citadel.Keystore.Governed

/-!
# What the policy stops

A key past its enforced cryptoperiod encrypts and decrypts nothing, but the policy is
never asked before a signature. A key that its policy stops is told to rotate; a rotation
starts a new age and keeps the count of uses.
-/

namespace Citadel

open Envelope Program

namespace Keystore

variable {ks : Keystore} {env : Env} {world after : World} {id : KeyId} {record : KeyMetadata}
  {level : ThreatLevel} {now : Nat}

/-! ### The end of a cryptoperiod -/

/-- An active key whose effective policy enforces a lifetime that its age has reached. -/
def Outlived (ks : Keystore) (level : ThreatLevel) (now : Nat) (record : KeyMetadata) : Prop :=
  record.state = .active ∧ ∃ policy lifetime activated,
    ks.effectivePolicyFor record level = some policy ∧ policy.enforceCryptoperiod = true ∧
    policy.maxLifetime = some lifetime ∧ record.activatedAt = some activated ∧
    (lifetime : Int) ≤ (now : Int) - activated

/-- The verdict on such a key, whatever its triggers and its use. -/
theorem Outlived.expired (outlived : Outlived ks level now record) :
    ∃ ageDays limitDays,
      ks.verdictAt level now record = .ok (some (.expired ageDays limitDays)) := by
  obtain ⟨active, policy, lifetime, activated, effective, enforced, limited, since, reached⟩ :=
    outlived
  have clamped : (chronoFromStd lifetime : Int) ≤ (now : Int) - activated := by
    have below : chronoFromStd lifetime ≤ lifetime := Nat.min_le_left _ _
    omega
  refine ⟨numDays ((now : Int) - activated), asSecs lifetime / 86400, ?_⟩
  simp only [verdictAt, effective, evaluate, active, cryptoperiodVerdict, enforced, limited, since,
    clamped, ne_eq, not_true_eq_false, if_false, if_true]
  rfl

/-- A call that returns an error and leaves every record as it was. -/
def Refuses {α : Type} (env : Env) (world : World) (program : Prog CallError α) : Prop :=
  (∃ error, (program.run (handle env) world).1 = .err error) ∧
    (program.run (handle env) world).2.keys = world.keys

/-- The key encrypts nothing, decrypts nothing and signs nothing. -/
def Stopped (ks : Keystore) (level : ThreatLevel) (world : World) (id : KeyId) : Prop :=
  ∀ env : Env, env.level = level →
    (∀ plaintext aad context, Refuses env world (ks.encrypt id plaintext aad context)) ∧
    (∀ blob aad context, blob.keyId = id.text → Refuses env world (ks.decrypt blob aad context)) ∧
    ∀ message, Refuses env world (ks.sign id message)

/-- A call that starts with a record it cannot load fails. -/
theorem refuses_of_getFault {ε α : Type} {translate : KeystoreError → ε} {wrap : ε → CallError}
    {fault : KeystoreError} {rest : KeyMetadata → Prog ε α} (faults : env.getFault id = some fault) :
    Refuses env world (((get id).mapErr translate >>= rest).mapErr wrap) := by
  have failed : (get id).run (handle env) world = (.err fault, world) := by
    simp [Keystore.get, handle, faulty, faults, Program.ofExcept]
  unfold Refuses
  rw [run_mapErr, run_bind, run_mapErr, failed]
  exact ⟨⟨_, rfl⟩, rfl⟩

/-- The hard stop of an encryption. -/
theorem Outlived.encrypt_refuses (found : world.keys.find? id = some record)
    (outlived : Outlived ks env.level world.now record) (plaintext : Bytes) (aad : Aad)
    (context : Context) : Refuses env world (ks.encrypt id plaintext aad context) := by
  cases fault : env.getFault id with
  | some problem => exact refuses_of_getFault fault
  | none =>
      obtain ⟨ageDays, limitDays, evaluated⟩ := outlived.expired
      have can : record.state.canEncrypt = true := by
        rw [outlived.1]
        rfl
      unfold Refuses
      rw [encrypt, run_mapErr, run_bind, run_mapErr, get_run fault found]
      simp only [Outcome.mapErr, andThen_ok, can, Bool.true_eq_false, if_false]
      by_cases data : encryptsUserData record.keyType = false
      · rw [if_pos data]
        exact ⟨⟨_, rfl⟩, rfl⟩
      · rw [if_neg data, run_bind, evaluateEffective_run, evaluated]
        exact ⟨⟨_, rfl⟩, rfl⟩

/-- The hard stop of a decryption. -/
theorem Outlived.decrypt_refuses (found : world.keys.find? id = some record)
    (outlived : Outlived ks env.level world.now record) {blob : EncryptedBlob}
    (ofKey : blob.keyId = id.text) (aad : Aad) (context : Context) :
    Refuses env world (ks.decrypt blob aad context) := by
  obtain rfl : id = ⟨blob.keyId⟩ := by
    rw [ofKey]
  cases fault : env.getFault ⟨blob.keyId⟩ with
  | some problem => exact refuses_of_getFault fault
  | none =>
      obtain ⟨ageDays, limitDays, evaluated⟩ := outlived.expired
      have can : record.state.canDecrypt = true := by
        rw [outlived.1]
        rfl
      unfold Refuses
      rw [decrypt, run_mapErr, run_bind, run_mapErr, get_run fault found]
      simp only [Outcome.mapErr, andThen_ok, can, Bool.true_eq_false, if_false, run_bind,
        evaluateEffective_run, evaluated]
      exact ⟨⟨_, rfl⟩, rfl⟩

/-! ### Signatures -/

/-- The program ends with a value or an error. -/
def Answers {ε α : Type} (env : Env) (world : World) (program : Prog ε α) : Prop :=
  ∀ why, (program.run (handle env) world).1 ≠ .aborted why

theorem answers_get : Answers env world (Keystore.get id) :=
  ends_ofExcept_bind fun _ _ => ends_ofOption

/-- A loaded record is the stored one. -/
theorem Answers.loaded {ε α : Type} {translate : KeystoreError → ε} {error : ε}
    {continuation : KeyMetadata → Prog ε α}
    (rest : ∀ record, world.keys.find? id = some record →
      Answers env world (continuation record)) :
    Answers env world (storageGet id >>= fun loaded => Program.ofExcept translate loaded >>=
      fun found => Program.ofOption error found >>= continuation) := by
  refine ends_ofExcept_bind fun found answered => ends_ofOption_bind fun record present => ?_
  subst present
  exact rest record (eq_of_faulty_eq_ok answered).symm

/-- In a sound table no unwrapping panics. -/
theorem Sound.answers_unwrap (lawful : ks.crypto.Lawful) (sound : Sound ks world.keys)
    (emptied : Emptied world.keys) {skip : Bool} {levels : Nat} {version : KeyVersion}
    (found : world.keys.find? id = some record) (member : version ∈ record.versions) :
    Answers env world (ks.unwrapKeyVersionInner skip levels id version) := by
  induction levels generalizing id record version with
  | zero => exact ends_fail
  | succ levels ih =>
      unfold unwrapKeyVersionInner
      split
      · exact ends_fail
      · exact ends_ofExcept
      · rename_i text material
        have live : record.state ≠ .destroyed := by
          intro destroyed
          rw [emptied id record found destroyed version member] at material
          cases material
        obtain ⟨secret, holds, -⟩ := sound id record found live version member
        obtain ⟨-, wraps⟩ := holds.masterWraps (by simp [material])
        rw [material] at wraps
        cases wraps with
        | encrypted set encrypts =>
            rw [unwrapEncrypted_masterWraps lawful set encrypts]
            exact ends_ret
      · refine ends_ofOption_bind fun parentId _ => Answers.loaded fun parent present => ?_
        split
        · exact ends_fail
        · refine ends_ofOption_bind fun number _ => ends_ofOption_bind fun parentVersion lookup => ?_
          refine ends_bind.mpr ⟨ih present (KeyMetadata.mem_of_getVersion lookup), ?_⟩
          exact fun parentSecret middle _ => unwrapSealed_ends

/-- An active signing key signs or answers with an error. -/
theorem Sound.answers_sign (lawful : ks.crypto.Lawful) (sound : Sound ks world.keys)
    (emptied : Emptied world.keys) {message : Bytes} : Answers env world (ks.sign id message) := by
  refine ends_mapErr ?_
  refine ends_bind.mpr ⟨ends_mapErr answers_get, ?_⟩
  intro record middle got
  obtain rfl : middle = world := by
    have neutral : ∀ op, Op.Reads op → ∀ world, (handle env op world).2 = world :=
      fun op reads => handle_of_reads reads
    have kept := (get_reads id).run_state neutral world
    rwa [of_run_mapErr_eq_ok got] at kept
  have found := find?_of_get (of_run_mapErr_eq_ok got)
  split
  · exact ends_fail
  · split
    · exact ends_fail
    · refine ends_ofOption_bind fun version current => ?_
      refine ends_bind.mpr ⟨ends_mapErr (sound.answers_unwrap lawful emptied found
        (KeyMetadata.mem_of_getVersion current)), fun seed middle _ => ?_⟩
      apply ends_ofExcept_bind
      intro signature _ why same
      cases same

/-- A key that cannot sign refuses to. -/
theorem sign_refuses (lawful : ks.crypto.Lawful) (sound : Sound ks world.keys)
    (emptied : Emptied world.keys) (cannot : ¬ CanSign ks world.keys id) (message : Bytes) :
    Refuses env world (ks.sign id message) := by
  have unchanged : ((ks.sign id message).run (handle env) world).2 = world :=
    sign_reads.run_state (fun op reads => handle_of_reads reads) world
  refine ⟨?_, by rw [unchanged]⟩
  match ended : (ks.sign id message).run (handle env) world with
  | (.ok payload, after) => exact absurd (canSign_of_run ended) cannot
  | (.err error, after) => exact ⟨error, rfl⟩
  | (.aborted why, after) =>
      exact absurd (congrArg Prod.fst ended) (sound.answers_sign lawful emptied why)

/-- The environment of a number at a threat level. -/
def envAt (level : ThreatLevel) (n : Nat) : Env := { quietEnv n with level := level }

/-- A key that can sign signs at every threat level and at every age. -/
theorem CanSign.not_stopped (signs : ks.crypto.Signs) (can : CanSign ks world.keys id) :
    ¬ Stopped ks level world id := by
  intro stopped
  obtain ⟨record, version, seed, found, signing, active, current, unwraps, exact⟩ := can
  obtain ⟨signature, signed, -⟩ := signs ⟨seed, exact⟩ []
  have signedBytes : ks.signMessage seed [] = .ok signature.1 := by
    simp [signMessage, exact, signed]
  have ran : (ks.sign id []).run (handle (envAt level 0)) world = (.ok _, world) :=
    sign_run (fun _ => rfl) found signing active current unwraps signedBytes
  obtain ⟨⟨error, failed⟩, -⟩ := (stopped (envAt level 0) rfl).2.2 []
  rw [ran] at failed
  cases failed

/-- Past its enforced cryptoperiod a key is stopped exactly if it is not a signing key
whose seed can be unwrapped. -/
theorem outlived_stopped_iff (ks : Keystore) (lawful : ks.crypto.Lawful) (signs : ks.crypto.Signs)
    (world : World) (reachable : Reachable ks anyStep world) (level : ThreatLevel) (now : Nat)
    (id : KeyId) (record : KeyMetadata) (found : world.keys.find? id = some record)
    (outlived : Outlived ks level now record) :
    Stopped ks level { world with now := now } id ↔ ¬ CanSign ks world.keys id := by
  obtain ⟨sound, emptied⟩ := reachable.sound lawful
  generalize entered : ({ world with now := now } : World) = later
  have sameKeys : later.keys = world.keys := by rw [← entered]
  have sameNow : later.now = now := by rw [← entered]
  rw [← sameKeys] at found sound emptied ⊢
  rw [← sameNow] at outlived
  constructor
  · intro stopped can
    exact can.not_stopped signs stopped
  · rintro cannot env rfl
    refine ⟨fun plaintext aad context => ?_, fun blob aad context ofKey => ?_, fun message => ?_⟩
    · exact outlived.encrypt_refuses found plaintext aad context
    · exact outlived.decrypt_refuses found ofKey aad context
    · exact sign_refuses lawful sound emptied cannot message

end Keystore

open Keystore

/-- A policy that enforces a lifetime of one day. -/
def dayLong : KeyPolicy where
  id := ⟨"day-long"⟩
  name := "Day long"
  appliesTo := [.dataEncrypting, .signing]
  rotationTriggers := []
  rotationGracePeriod := fromSecs 43200
  maxLifetime := some (fromSecs 86400)
  maxUsageCount := none
  autoRotate := false
  minVersionsRetained := 3
  enforceCryptoperiod := true

/-- The plain keystore with one policy for every name. -/
def keystoreUnder (policy : KeyPolicy) : Keystore :=
  { plainKeystore with policies := fun _ => some policy }

theorem keystoreUnder_growable (policy : KeyPolicy) : Growable (keystoreUnder policy) :=
  ⟨transparent_lawful, transparent_seals, rfl⟩

/-- After a day a key under that policy has outlived it. -/
theorem GovernedLine.outlived {keys : Keys} {keyType : KeyType} {policyId : PolicyId}
    {record : KeyMetadata} {version : KeyVersion}
    (line : GovernedLine keys keyType policyId record version) :
    Outlived (keystoreUnder dayLong) .low (fromSecs 86400) record := by
  refine ⟨line.governed.active, adapt dayLong .low, fromSecs 86400, 0, ?_, rfl, ?_,
    line.governed.activatedAt, by decide⟩
  · rw [effectivePolicyFor, line.governed.policyId]
    rfl
  · decide +kernel

/-- A data key that has outlived its policy is stopped. -/
theorem outlived_data_key_stopped :
    ∃ world record, Reachable (keystoreUnder dayLong) anyStep world ∧
      world.keys.find? (keyNumbered 3) = some record ∧
      Outlived (keystoreUnder dayLong) .low (fromSecs 86400) record ∧
      Stopped (keystoreUnder dayLong) .low { world with now := fromSecs 86400 } (keyNumbered 3) := by
  obtain ⟨world, record, version, reachable, -, line⟩ := exists_governedLine
    (keystoreUnder_growable dayLong) (.inr rfl) ⟨"day-long"⟩ (.memory ⟨1, []⟩)
    fun _ _ _ => trivial
  refine ⟨world, record, reachable, line.found, line.outlived, ?_⟩
  refine (outlived_stopped_iff (keystoreUnder dayLong) transparent_lawful transparent_signs world
    reachable .low (fromSecs 86400) (keyNumbered 3) record line.found line.outlived).mpr ?_
  rintro ⟨other, -, -, found, signing, -⟩
  obtain rfl : record = other := Option.some.inj (line.found.symm.trans found)
  rw [line.governed.keyType] at signing
  cases signing

/-- A signing key that has outlived its policy signs. -/
theorem outlived_signing_key_signs :
    ∃ world record, Reachable (keystoreUnder dayLong) anyStep world ∧
      world.keys.find? (keyNumbered 3) = some record ∧
      Outlived (keystoreUnder dayLong) .low (fromSecs 86400) record ∧
      ¬ Stopped (keystoreUnder dayLong) .low { world with now := fromSecs 86400 }
        (keyNumbered 3) := by
  obtain ⟨world, record, version, reachable, -, line⟩ := exists_governedLine
    (keystoreUnder_growable dayLong) (.inl rfl) ⟨"day-long"⟩ (.memory ⟨1, []⟩)
    fun _ _ grows => sparesSigning_of_grows grows
  have member : version ∈ record.versions := by simp [line.governed.versions]
  obtain ⟨secret, holds, pair⟩ := Reachable.holdPairs transparent_lawful reachable _ record
    line.found (by simp [line.governed.active]) version member
  rw [line.governed.keyType] at pair
  obtain ⟨seed, rfl, -⟩ := pair
  have unwraps := (line.chain false).unwraps transparent_lawful
    (reachable.sound transparent_lawful).1 holds
  have can : CanSign (keystoreUnder dayLong) ({ world with now := fromSecs 86400 } : World).keys
      (keyNumbered 3) :=
    ⟨record, version, seed.1, line.found, line.governed.keyType, line.governed.active,
      line.governed.current, unwraps, seed.2⟩
  exact ⟨world, record, reachable.any, line.found, line.outlived,
    can.not_stopped transparent_signs⟩

namespace Keystore

variable {ks : Keystore} {env : Env} {world after : World} {id : KeyId} {record : KeyMetadata}
  {level : ThreatLevel} {now : Nat}

/-! ### What a rotation changes for the policy -/

/-- The verdict that stops an encryption with the request to rotate. -/
def Blocks (ks : Keystore) (level : ThreatLevel) (now : Nat) (record : KeyMetadata)
    (message : String) : Prop :=
  ∃ verdict, ks.verdictAt level now record = .ok (some verdict) ∧
    encryptionBlock verdict = some message

/-- The verdict that lets an encryption through. -/
def Passes (ks : Keystore) (level : ThreatLevel) (now : Nat) (record : KeyMetadata) : Prop :=
  ∃ verdict, ks.verdictAt level now record = .ok verdict ∧ verdict.bind encryptionBlock = none

/-- A key that encrypts user data and that its policy stops at the gate of `encrypt`. -/
structure RefusedByPolicy (ks : Keystore) (env : Env) (world : World) (id : KeyId)
    (record : KeyMetadata) (message : String) : Prop where
  found : world.keys.find? id = some record
  answers : env.getFault id = none
  active : record.state = .active
  data : encryptsUserData record.keyType = true
  blocks : Blocks ks env.level world.now record message

/-- Such an encryption returns the message and changes nothing. -/
theorem RefusedByPolicy.encrypt_run {message : String}
    (refused : RefusedByPolicy ks env world id record message) (plaintext : Bytes) (aad : Aad)
    (context : Context) :
    (ks.encrypt id plaintext aad context).run (handle env) world =
      (.err (.encrypt message), world) := by
  obtain ⟨verdict, evaluated, blocked⟩ := refused.blocks
  rw [encrypt, run_mapErr, run_bind, run_mapErr, get_run refused.answers refused.found]
  simp only [Outcome.mapErr, andThen_ok, refused.active, KeyState.canEncrypt, refused.data,
    Bool.true_eq_false, if_false, run_bind, evaluateEffective_run, evaluated, Option.bind_some,
    blocked, run_fail]

/-- What a successful `rotate` did. -/
theorem rotated_of_run {key : KeyId}
    (ran : (ks.rotate id).run (handle env) world = (.ok key, after)) :
    ∃ before version, world.keys.find? id = some before ∧
      after = { world with keys := world.keys.insert (rotatedRecord before world.now version) } := by
  have neutral : ∀ op, Op.Reads op → ∀ world, (handle env op world).2 = world :=
    fun op reads => handle_of_reads reads
  have body := of_run_mapErr_eq_ok ran
  obtain ⟨before, got, rest⟩ := (get_reads id).of_run_bind_eq_ok neutral body
  obtain ⟨active, rest⟩ := of_run_guard_eq_ok rest
  obtain ⟨⟨⟩, -, rest⟩ := requireMasterKey_reads.of_run_bind_eq_ok neutral rest
  simp only [osRng, utcNow, call_bind, run_perform] at rest
  obtain ⟨wrapped, -, rest⟩ :=
    (wrapSecretKeyFor_reads _ _ _ _).mapErr.of_run_bind_eq_ok neutral rest
  have stored := of_put_bind_eq_ok rest
  cases stored
  exact ⟨before, _, find?_of_get got, rfl⟩

end Keystore

/-- Every limit of the policy is positive. -/
structure KeyPolicy.PositiveLimits (policy : KeyPolicy) : Prop where
  age : ∀ limit, RotationTrigger.age limit ∈ policy.rotationTriggers → 0 < limit
  lifetime : ∀ limit, policy.maxLifetime = some limit → 0 < limit
  usage : ∀ limit, policy.maxUsageCount = some limit → 0 < limit

/-- An age that no trigger and no enforced lifetime of the policy has reached. -/
structure KeyPolicy.Young (policy : KeyPolicy) (age : Int) : Prop where
  triggers : ∀ limit, RotationTrigger.age limit ∈ policy.rotationTriggers →
    age < chronoFromStd limit
  lifetime : policy.enforceCryptoperiod = true → ∀ limit, policy.maxLifetime = some limit →
    age < chronoFromStd limit

/-- Adaptation leaves a positive duration positive, also where it is cut to what the clock
can tell. -/
theorem chronoFromStd_scaleDuration_pos (factor : Float64) {floor base : Nat}
    (floored : 0 < floor) (positive : 0 < base) :
    (0 : Int) < chronoFromStd (scaleDuration factor floor base) := by
  have most : 0 < chronoMax := by decide
  unfold chronoFromStd scaleDuration
  omega

/-- A key with positive limits is young when it is activated. -/
theorem KeyPolicy.PositiveLimits.young {base : KeyPolicy} (positive : base.PositiveLimits)
    (level : ThreatLevel) : (adapt base level).Young 0 where
  triggers := by
    intro limit member
    simp only [adapt, List.mem_map] at member
    obtain ⟨trigger, stored, scaled⟩ := member
    cases trigger with
    | age original =>
        cases scaled
        exact chronoFromStd_scaleDuration_pos _ (by decide) (positive.age original stored)
    | usageCount original => cases scaled
    | externalSignal signal => cases scaled
    | parentRotated => cases scaled
  lifetime := by
    intro enforced limit limited
    simp only [adapt, Option.map_eq_some_iff] at limited
    obtain ⟨original, stored, rfl⟩ := limited
    exact chronoFromStd_scaleDuration_pos _ (by decide) (positive.lifetime original stored)

/-- No trigger asks for a rotation of a young key. -/
theorem encryptionBlock_ageVerdict {triggers : List RotationTrigger} {age : Int}
    (young : ∀ limit, RotationTrigger.age limit ∈ triggers → age < chronoFromStd limit) :
    encryptionBlock (ageVerdict triggers age) = none := by
  induction triggers with
  | nil => rfl
  | cons trigger rest ih =>
      have later := ih fun limit member => young limit (List.mem_cons_of_mem _ member)
      cases trigger with
      | age limit =>
          have below := young limit List.mem_cons_self
          unfold ageVerdict
          rw [if_neg (by omega)]
          split
          · rfl
          · exact later
      | usageCount limit => exact later
      | externalSignal signal => exact later
      | parentRotated => exact later

/-- The uses are below the limit of the policy. -/
def KeyPolicy.BelowUsage (policy : KeyPolicy) (usageCount : Nat) : Prop :=
  ∀ limit, policy.maxUsageCount = some limit → usageCount < limit

/-- An enforced lifetime counts at least one second: the percentage that the evaluation
logs divides by its seconds. -/
def KeyPolicy.LogsPercentage (policy : KeyPolicy) : Prop :=
  policy.enforceCryptoperiod = true → ∀ limit, policy.maxLifetime = some limit → second ≤ limit

/-- The cryptoperiod of a young key. -/
theorem cryptoperiodVerdict_of_young {policy : KeyPolicy} {key : KeyMetadata} {now activated : Nat}
    (since : key.activatedAt = some activated) (young : policy.Young ((now : Int) - activated))
    (logs : policy.LogsPercentage) : cryptoperiodVerdict policy key now = .ok none := by
  unfold cryptoperiodVerdict
  split
  · rename_i lifetime start enforced limited started
    obtain rfl : activated = start := Option.some.inj (since.symm.trans started)
    have below := young.lifetime enforced lifetime limited
    have long := logs enforced lifetime limited
    have seconds : numSeconds (chronoFromStd lifetime) ≠ 0 := by
      have most : second ≤ chronoMax := by decide
      have enough : second ≤ chronoFromStd lifetime := Nat.le_min.mpr ⟨long, most⟩
      unfold numSeconds
      have positive : 0 < chronoFromStd lifetime / second := Nat.div_pos enough (by decide)
      rw [← Int.ofNat_tdiv]
      omega
    simp only [if_neg (by omega : ¬ (chronoFromStd lifetime : Int) ≤ (now : Int) - activated)]
    rw [if_neg fun warns => seconds warns.2]
  · rfl

/-- At the moment of its activation a key with a shorter enforced lifetime cannot be
evaluated. -/
theorem cryptoperiodVerdict_at_activation {policy : KeyPolicy} {key : KeyMetadata} {now : Nat}
    (since : key.activatedAt = some now) (young : policy.Young 0)
    {verdict : Option PolicyVerdict} (evaluated : cryptoperiodVerdict policy key now = .ok verdict) :
    policy.LogsPercentage := by
  intro enforced lifetime limited
  by_contra short
  have below := young.lifetime enforced lifetime limited
  have none : asSecs lifetime = 0 := Nat.div_eq_of_lt (Nat.not_le.mp short)
  have clamped : chronoFromStd lifetime < second :=
    Nat.lt_of_le_of_lt (Nat.min_le_left _ _) (Nat.not_le.mp short)
  have zero : numSeconds (chronoFromStd lifetime) = 0 := by
    unfold numSeconds
    rw [← Int.ofNat_tdiv, Nat.div_eq_of_lt clamped]
    rfl
  have threshold : chronoFromStd (fromSecs (Float64.fourFifths.scaleU64 (asSecs lifetime))) = 0 := by
    rw [none]
    decide
  simp only [cryptoperiodVerdict, enforced, limited, since, Int.sub_self, threshold, zero] at evaluated
  rw [if_neg (by omega), if_pos ⟨Int.le_refl 0, trivial⟩] at evaluated
  cases evaluated

/-- No limit on the uses stops a key that is below it. -/
theorem encryptionBlock_usageVerdict {policy : KeyPolicy} {key : KeyMetadata}
    {verdict : PolicyVerdict} (below : policy.BelowUsage key.usageCount)
    (found : usageVerdict policy key = some verdict) : encryptionBlock verdict = none := by
  unfold usageVerdict at found
  split at found
  · cases found
  · rename_i limit limited
    rw [if_neg (Nat.not_le.mpr (below limit limited))] at found
    split at found
    · cases found
      rfl
    · cases found

/-- A young key below its usage limit passes. -/
theorem evaluate_of_young {policy : KeyPolicy} {key : KeyMetadata} {now activated : Nat}
    (active : key.state = .active) (since : key.activatedAt = some activated)
    (young : policy.Young ((now : Int) - activated)) (logs : policy.LogsPercentage)
    (below : policy.BelowUsage key.usageCount) :
    ∃ verdict, evaluate policy key now = .ok verdict ∧ encryptionBlock verdict = none := by
  rw [evaluate, if_neg (by simp [active]), cryptoperiodVerdict_of_young since young logs]
  cases used : usageVerdict policy key with
  | some verdict => exact ⟨verdict, rfl, encryptionBlock_usageVerdict below used⟩
  | none =>
      rw [since]
      exact ⟨_, rfl, encryptionBlock_ageVerdict young.triggers⟩

/-- What a key that passes at the moment of its activation has. -/
theorem of_evaluate_at_activation {policy : KeyPolicy} {key : KeyMetadata} {now : Nat}
    {verdict : PolicyVerdict} (active : key.state = .active) (since : key.activatedAt = some now)
    (young : policy.Young 0) (evaluated : evaluate policy key now = .ok verdict)
    (unblocked : encryptionBlock verdict = none) :
    policy.LogsPercentage ∧ policy.BelowUsage key.usageCount := by
  constructor
  · rw [evaluate, if_neg (by simp [active])] at evaluated
    split at evaluated
    · cases evaluated
    · rename_i found period
      exact cryptoperiodVerdict_at_activation since young period
    · rename_i period
      exact cryptoperiodVerdict_at_activation since young period
  · intro limit limited
    refine usageCount_lt_of_evaluate active limited evaluated ?_ ?_
    · cases verdict with
      | expired ageDays limitDays => cases unblocked
      | _ => rfl
    · rintro count max rfl
      cases unblocked

namespace Keystore

/-- A rotation at the policy's request lets the key through again, until its new age
reaches a limit, exactly if the uses of the key are below the usage limit (and the
evaluation can log its percentage). -/
theorem rotation_unblocks_iff (ks : Keystore) (env rotating : Env) (world after : World)
    (id key : KeyId) (record : KeyMetadata) (message : String) (base : KeyPolicy) (moment : Nat)
    (refused : RefusedByPolicy ks env world id record message)
    (governed : record.policyId.bind ks.policies = some base) (positive : base.PositiveLimits)
    (rotated : (ks.rotate id).run (handle rotating) { world with now := moment } =
      (.ok key, after)) :
    (∀ now : Nat, (adapt base env.level).Young ((now : Int) - moment) →
      ∃ kept, after.keys.find? id = some kept ∧ Passes ks env.level now kept) ↔
    (adapt base env.level).BelowUsage record.usageCount ∧
      (adapt base env.level).LogsPercentage := by
  obtain ⟨before, version, found, rfl⟩ := rotated_of_run rotated
  obtain rfl : record = before := Option.some.inj (refused.found.symm.trans found)
  have own : record.id = id := Table.key_of_find? found
  have kept : (world.keys.insert (rotatedRecord record moment version)).find? id =
      some (rotatedRecord record moment version) := by
    rw [← own]
    exact Table.find?_insert_self _ _
  have effective : ks.effectivePolicyFor (rotatedRecord record moment version) env.level =
      some (adapt base env.level) := by
    simp only [effectivePolicyFor, rotatedRecord, governed, Option.map_some]
  have verdict : ∀ now, ks.verdictAt env.level now (rotatedRecord record moment version) =
      (evaluate (adapt base env.level) (rotatedRecord record moment version) now).map some := by
    intro now
    rw [verdictAt, effective]
  constructor
  · intro unblocks
    obtain ⟨same, present, found, passed, unblocked⟩ :=
      unblocks moment (by rw [Int.sub_self]; exact positive.young env.level)
    obtain rfl : rotatedRecord record moment version = same :=
      Option.some.inj (kept.symm.trans present)
    rw [verdict] at passed
    cases evaluated : evaluate (adapt base env.level) (rotatedRecord record moment version)
        moment with
    | error why =>
        rw [evaluated] at passed
        cases passed
    | ok result =>
        rw [evaluated] at passed
        cases passed
        exact (of_evaluate_at_activation rfl rfl (positive.young env.level) evaluated unblocked).symm
  · rintro ⟨below, logs⟩ now young
    have active : (rotatedRecord record moment version).state = .active := rfl
    obtain ⟨result, evaluated, unblocked⟩ := evaluate_of_young active rfl young logs below
    refine ⟨_, kept, some result, ?_, unblocked⟩
    rw [verdict, evaluated]
    rfl

end Keystore

/-- A policy that allows one use. -/
def singleUse : KeyPolicy :=
  { dayLong with
    id := ⟨"single-use"⟩
    maxLifetime := none
    maxUsageCount := some 1
    enforceCryptoperiod := false }

theorem singleUse_positive : singleUse.PositiveLimits where
  age := nofun
  lifetime := nofun
  usage := by
    rintro limit ⟨⟩
    decide

theorem singleUse_limit : (adapt singleUse .low).maxUsageCount = some 1 := by
  decide +kernel

/-- A key of a single use that was used is refused at any time. -/
theorem refused_of_used {env : Env} {world : World} {id : KeyId} {record : KeyMetadata}
    (low : env.level = .low) (answers : env.getFault id = none)
    (found : world.keys.find? id = some record) (active : record.state = .active)
    (data : record.keyType = .dataEncrypting) (bound : record.policyId = some ⟨"single-use"⟩)
    (used : record.usageCount = 1) :
    RefusedByPolicy (keystoreUnder singleUse) env world id record
      "policy violation: usage 1/1 exceeded. Rotate key before encrypting." where
  found := found
  answers := answers
  active := active
  data := by
    rw [data]
    rfl
  blocks := by
    refine ⟨.usageLimitExceeded 1 1, ?_, by decide⟩
    have effective : (keystoreUnder singleUse).effectivePolicyFor record env.level =
        some (adapt singleUse .low) := by
      rw [effectivePolicyFor, bound, low]
      rfl
    have unenforced : cryptoperiodVerdict (adapt singleUse .low) record world.now = .ok none := rfl
    simp only [verdictAt, effective, evaluate, active, ne_eq, not_true_eq_false, if_false,
      unenforced, usageVerdict, singleUse_limit, used, le_refl, if_true]
    rfl

/-- A new data key at the end of such a line encrypts when its policy lets it. -/
theorem GovernedLine.encrypts {policy : KeyPolicy} {start : World} {policyId : PolicyId}
    {record : KeyMetadata} {version : KeyVersion}
    (line : GovernedLine start.keys .dataEncrypting policyId record version)
    (reached : Reachable (keystoreUnder policy) anyStep start)
    (passes : Passes (keystoreUnder policy) .low 0 record) :
    ∃ blob, Reachable (keystoreUnder policy) anyStep
        ⟨0, start.keys.insert (usedRecord record 0), start.replay⟩ ∧
      Encrypts (keystoreUnder policy) (quietEnv 4) ⟨0, start.keys, start.replay⟩ (keyNumbered 3)
        [1] ⟨[]⟩ ⟨[]⟩ blob ⟨0, start.keys.insert (usedRecord record 0), start.replay⟩ := by
  have sound := (reached.sound transparent_lawful).1
  obtain ⟨key, stores⟩ := line.storesPublicKey transparent_lawful sound (by simp)
  have encryptable : Encryptable (keystoreUnder policy) (quietEnv 4)
      ⟨0, start.keys, start.replay⟩ record version key :=
    { active := line.governed.active
      data := by
        rw [line.governed.keyType]
        rfl
      unblocked := passes
      current := line.governed.current
      stores := stores }
  obtain ⟨ciphertext, sealed⟩ := (keystoreUnder_growable policy).sealed 4 1 key
    (by decide : ([1] : Bytes).length ≤ WireV2.maxPlaintextLen)
    (by decide : (⟨[]⟩ : Aad).inner.length ≤ 1024)
    (by decide : (⟨[]⟩ : Context).inner.length ≤ WireV2.maxContextLen)
  have ran := (encrypt_resumes (quietEnv_reliable 4) encryptable line.resolves sealed).run rfl
    line.found
  have stepped : (Step.mk 0 (quietEnv 4) (.encrypt (keyNumbered 3) [1] ⟨[]⟩ ⟨[]⟩)).run
      (keystoreUnder policy) start = _ :=
    Step.run_of_prog fun fuel => by
      rw [Call.prog, run_bind, ran, andThen_ok, pure_eq_ret, run_ret]
  have next := reached.step ⟨0, quietEnv 4, .encrypt (keyNumbered 3) [1] ⟨[]⟩ ⟨[]⟩⟩
    (fresh_of_absent (line.absent 4 (by decide) (by decide))) trivial
  rw [stepped] at next
  exact ⟨_, next, encrypts_of_run ran⟩

/-- A new key of a single use can be used. -/
theorem exists_used : ∃ world record kek kekVersion,
    Reachable (keystoreUnder singleUse) anyStep world ∧
    world.keys.find? (keyNumbered 3) = some record ∧ record.state = .active ∧
    record.keyType = .dataEncrypting ∧ record.policyId = some ⟨"single-use"⟩ ∧
    record.usageCount = 1 ∧ record.currentVersion = 1 ∧
    record.parentId = some (keyNumbered 2) ∧ world.keys.find? (keyNumbered 2) = some kek ∧
    Planted 2 ⟨.keyEncrypting, some 1, .active⟩ kek kekVersion := by
  obtain ⟨start, record, version, reached, -, line⟩ := exists_governedLine
    (keystoreUnder_growable singleUse) (.inr rfl) ⟨"single-use"⟩ (.memory ⟨1, []⟩)
    fun _ _ _ => trivial
  obtain ⟨kek, kekVersion, kekFound, planted⟩ := line.kek
  have effective : (keystoreUnder singleUse).effectivePolicyFor record .low =
      some (adapt singleUse .low) := by
    rw [effectivePolicyFor, line.governed.policyId]
    rfl
  obtain ⟨verdict, evaluated, passes⟩ : ∃ verdict,
      evaluate (adapt singleUse .low) record 0 = .ok verdict ∧ encryptionBlock verdict = none := by
    refine evaluate_of_young line.governed.active line.governed.activatedAt
      (singleUse_positive.young .low) ?_ ?_
    · intro _ limit limited
      cases limited
    intro limit limited
    obtain rfl : 1 = limit := Option.some.inj (singleUse_limit.symm.trans limited)
    rw [line.governed.usageCount]
    decide
  obtain ⟨blob, next, -⟩ := line.encrypts reached ⟨some verdict, by
    rw [verdictAt, effective]
    exact congrArg (Except.map some) evaluated, passes⟩
  have own : (usedRecord record 0).id = keyNumbered 3 := line.governed.id
  refine ⟨_, usedRecord record 0, kek, kekVersion, next, find?_insert_own own,
    line.governed.active, line.governed.keyType, line.governed.policyId, ?_,
    line.governed.currentVersion, line.governed.parentId, ?_, planted⟩
  · simp [usedRecord, line.governed.usageCount]
  · exact (find?_insert_numbered own (by decide) (by decide) (by decide)).trans kekFound

/-- A key that has reached its usage limit is refused after a rotation as before it. -/
theorem usage_limit_survives_rotation :
    ∃ world after record kept message, Reachable (keystoreUnder singleUse) anyStep world ∧
      singleUse.PositiveLimits ∧
      RefusedByPolicy (keystoreUnder singleUse) (quietEnv 5) world (keyNumbered 3) record message ∧
      ((keystoreUnder singleUse).rotate (keyNumbered 3)).run (handle (quietEnv 5)) world =
        (.ok (keyNumbered 3), after) ∧
      RefusedByPolicy (keystoreUnder singleUse) (quietEnv 6) after (keyNumbered 3) kept
        message := by
  obtain ⟨world, record, kek, kekVersion, reachable, found, active, data, bound, used, first,
    child, kekFound, planted⟩ := exists_used
  have sound := (reachable.sound transparent_lawful).1
  have sealable : Sealable (keystoreUnder singleUse) world.keys (keyNumbered 3)
      ((record.currentVersion + 1) % 2 ^ 32) record.parentId := by
    rw [first, child]
    exact planted.sealable transparent_lawful sound kekFound (by decide)
  obtain ⟨wrapped, rotated, -⟩ := rotate_run ((keystoreUnder_growable singleUse).canWrap 5) found
    active sealable
  have own : record.id = keyNumbered 3 := Table.key_of_find? found
  exact ⟨world, _, record, _, _, reachable, singleUse_positive,
    refused_of_used rfl rfl found active data bound used, rotated,
    refused_of_used rfl rfl (find?_insert_own own) rfl data bound used⟩

/-- A policy that asks for a rotation after a day. -/
def dayOld : KeyPolicy :=
  { dayLong with
    id := ⟨"day-old"⟩
    rotationTriggers := [.age (fromSecs 86400)]
    maxLifetime := none
    enforceCryptoperiod := false }

theorem dayOld_positive : dayOld.PositiveLimits where
  age := by
    intro limit member
    cases member with
    | head => decide
    | tail _ rest => cases rest
  lifetime := nofun
  usage := nofun

theorem dayOld_triggers : (adapt dayOld .low).rotationTriggers = [.age (fromSecs 86400)] := by
  decide +kernel

/-- A key of a day is refused. -/
theorem GovernedLine.refused (world : World) {record : KeyMetadata} {version : KeyVersion}
    (line : GovernedLine world.keys .dataEncrypting ⟨"day-old"⟩ record version)
    (today : world.now = fromSecs 86400) :
    RefusedByPolicy (keystoreUnder dayOld) (quietEnv 4) world (keyNumbered 3) record
      "policy violation: age 1d exceeds max 1d. Rotate key before encrypting." where
  found := line.found
  answers := rfl
  active := line.governed.active
  data := by
    rw [line.governed.keyType]
    rfl
  blocks := by
    refine ⟨.rotationNeeded "age 1d exceeds max 1d", ?_, by decide⟩
    have effective : (keystoreUnder dayOld).effectivePolicyFor record .low =
        some (adapt dayOld .low) := by
      rw [effectivePolicyFor, line.governed.policyId]
      rfl
    have low : (quietEnv 4).level = .low := rfl
    have unlimited : usageVerdict (adapt dayOld .low) record = none := rfl
    have aged : ageVerdict [.age (fromSecs 86400)] ((fromSecs 86400 : Nat) - (0 : Nat) : Int) =
        .rotationNeeded "age 1d exceeds max 1d" := by decide +kernel
    simp only [verdictAt, low, effective, evaluate, line.governed.active, ne_eq, not_true_eq_false,
      if_false, unlimited, line.governed.activatedAt, dayOld_triggers, today, aged]
    rfl

/-- A key that is refused for its age is let through after a rotation. -/
theorem aged_key_unblocked :
    ∃ world after record message,
      RefusedByPolicy (keystoreUnder dayOld) (quietEnv 4) world (keyNumbered 3) record message ∧
      ((keystoreUnder dayOld).rotate (keyNumbered 3)).run (handle (quietEnv 4)) world =
        (.ok (keyNumbered 3), after) ∧
      ∃ kept, after.keys.find? (keyNumbered 3) = some kept ∧
        Passes (keystoreUnder dayOld) .low (fromSecs 86400) kept := by
  obtain ⟨start, record, version, reached, -, line⟩ := exists_governedLine
    (keystoreUnder_growable dayOld) (.inr rfl) ⟨"day-old"⟩ (.memory ⟨1, []⟩)
    fun _ _ _ => trivial
  obtain ⟨kek, kekVersion, kekFound, planted⟩ := line.kek
  have sound := (reached.sound transparent_lawful).1
  have sealable : Sealable (keystoreUnder dayOld) start.keys (keyNumbered 3)
      ((record.currentVersion + 1) % 2 ^ 32) record.parentId := by
    rw [line.governed.currentVersion, line.governed.parentId]
    exact planted.sealable transparent_lawful sound kekFound (by decide)
  have refused := GovernedLine.refused ⟨fromSecs 86400, start.keys, start.replay⟩ line rfl
  obtain ⟨wrapped, rotated, -⟩ : ∃ wrapped, ((keystoreUnder dayOld).rotate (keyNumbered 3)).run
      (handle (quietEnv 4)) ⟨fromSecs 86400, start.keys, start.replay⟩ = _ ∧ _ :=
    rotate_run ((keystoreUnder_growable dayOld).canWrap 4) line.found line.governed.active sealable
  refine ⟨_, _, record, _, refused, rotated, ?_⟩
  have unblocks := rotation_unblocks_iff (keystoreUnder dayOld) (quietEnv 4) (quietEnv 4) _ _
    (keyNumbered 3) (keyNumbered 3) record _ dayOld (fromSecs 86400) refused
    (by rw [line.governed.policyId]; rfl) dayOld_positive rotated
  refine unblocks.mpr ⟨nofun, nofun⟩ (fromSecs 86400) ?_
  rw [Int.sub_self]
  exact dayOld_positive.young .low

end Citadel
