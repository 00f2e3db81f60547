import Citadel.Keystore.Calls

/-!
# The reading parts of the calls

Every call reads before it writes. This module collects what the reading parts do:
they leave the world alone (`Uses Op.Reads`), and a reading part that succeeded tells
what was stored when it ran. `Wraps` is the second kind of fact for the wrapping of a
secret; unwrapping has a module of its own.
-/

namespace Citadel

open Envelope Program

/-- The operation that loads a record. -/
def Op.Gets : Op → Prop
  | .get _ => True
  | _ => False

theorem Op.Gets.reads {op : Op} (gets : op.Gets) : op.Reads := by
  cases op with
  | get id => trivial
  | _ => exact gets.elim

namespace Keystore

variable {ks : Keystore} {env : Env} {world after : World}

theorem get_gets (id : KeyId) : (get id).Uses Op.Gets := by
  refine Uses.bind ⟨trivial, fun _ => trivial⟩ fun loaded => ?_
  exact Uses.bind uses_ofExcept fun found => uses_ofOption

theorem get_reads (id : KeyId) : (get id).Uses Op.Reads :=
  (get_gets id).mono fun _ => Op.Gets.reads

/-- `get` returns the stored record. -/
theorem find?_of_get {id : KeyId} {record : KeyMetadata}
    (ran : (get id).run (handle env) world = (.ok record, after)) :
    world.keys.find? id = some record := by
  obtain ⟨found, answered, rest⟩ := of_run_ofExcept_bind_eq_ok ran
  rw [← of_run_ofOption_eq_ok rest]
  exact (eq_of_faulty_eq_ok answered).symm

/-- `get` finds what is stored when the backend answers. -/
theorem get_run {id : KeyId} {record : KeyMetadata} (answers : env.getFault id = none)
    (found : world.keys.find? id = some record) :
    (get id).run (handle env) world = (.ok record, world) := by
  simp [get, handle, faulty, answers, found, Program.ofExcept, Program.ofOption]

/-- A loaded record that is present is the stored one. -/
theorem find?_of_loaded {ε δ : Type} {translate : KeystoreError → ε} {error : ε}
    {id : KeyId} {continuation : KeyMetadata → Prog ε δ} {result : δ}
    (ran : (storageGet id >>= fun loaded => Program.ofExcept translate loaded >>= fun found =>
      Program.ofOption error found >>= continuation).run (handle env) world =
        (.ok result, after)) :
    ∃ record, world.keys.find? id = some record ∧
      (continuation record).run (handle env) world = (.ok result, after) := by
  obtain ⟨found, answered, present⟩ := of_run_ofExcept_bind_eq_ok ran
  obtain ⟨record, rfl, rest⟩ := of_run_ofOption_bind_eq_ok present
  exact ⟨record, (eq_of_faulty_eq_ok answered).symm, rest⟩

/-- A `put` that reports success stored its record. -/
theorem handlePut_eq_ok {outcome : PutOutcome} {record : KeyMetadata}
    (succeeded : (handlePut outcome record world).1 = .ok ()) :
    (handlePut outcome record world).2 = { world with keys := world.keys.insert record } := by
  cases outcome with
  | stored => rfl
  | refused error => cases succeeded
  | storedThenFailed error => cases succeeded

theorem of_put_bind_eq_ok {ε α : Type} {translate : KeystoreError → ε} {record : KeyMetadata}
    {continuation : Unit → Prog ε α} {result : α}
    (ran : (storagePut record >>= fun stored =>
      Program.ofExcept translate stored >>= continuation).run (handle env) world =
        (.ok result, after)) :
    (continuation ()).run (handle env) { world with keys := world.keys.insert record } =
      (.ok result, after) := by
  obtain ⟨done, stored, rest⟩ := of_run_ofExcept_bind_eq_ok ran
  have written := handlePut_eq_ok stored
  rwa [show (handle env (.put record) world).2 = _ from written] at rest

/-- The last write of an operation. -/
theorem of_put_eq_ok {ε : Type} {translate : KeystoreError → ε} {record : KeyMetadata}
    (ran : (storagePut record >>= fun stored => Program.ofExcept translate stored).run
      (handle env) world = (.ok (), after)) :
    after = { world with keys := world.keys.insert record } := by
  have stored := of_run_ofExcept_eq_ok ran
  have written := handlePut_eq_ok stored
  have unchanged : after = (handle env (.put record) world).2 := by
    rw [call_bind, run_perform, show (handle env (.put record) world).1 = .ok () from stored] at ran
    cases ran
    rfl
  rw [unchanged]
  exact written

theorem resolveDomainFrom_gets (start : KeyId) (left depth : Nat) (current : KeyId) :
    (resolveDomainFrom start left depth current).Uses Op.Gets := by
  induction left generalizing depth current with
  | zero => trivial
  | succ left ih =>
      refine Uses.bind (get_gets current) fun record => ?_
      cases record.keyType with
      | domain => trivial
      | root => trivial
      | _ => exact Uses.bind uses_ofOption fun parentId => ih _ _

theorem resolveDomainForKey_gets (keyId : KeyId) :
    (resolveDomainForKey keyId).Uses Op.Gets := resolveDomainFrom_gets _ _ _ _

theorem resolveDomainForKey_reads (keyId : KeyId) :
    (resolveDomainForKey keyId).Uses Op.Reads :=
  (resolveDomainForKey_gets keyId).mono fun _ => Op.Gets.reads

theorem evaluateEffective_reads {ε : Type} (record : KeyMetadata) :
    (ks.evaluateEffective record : Prog ε (Option PolicyVerdict)).Uses Op.Reads := by
  refine Uses.bind ⟨trivial, fun _ => trivial⟩ fun level => ?_
  cases ks.effectivePolicyFor record level with
  | none => trivial
  | some policy =>
      refine Uses.bind ⟨trivial, fun _ => trivial⟩ fun now => ?_
      cases evaluate policy record now with
      | error why => trivial
      | ok verdict => trivial

theorem requireMasterKey_reads : ks.requireMasterKey.Uses Op.Reads := by
  unfold requireMasterKey
  cases ks.masterKey with
  | some masterKey => trivial
  | none =>
      refine Uses.bind ⟨trivial, fun _ => trivial⟩ fun process => ?_
      split
      · trivial
      · trivial

theorem decodeHex_reads (label : String) (text : Bytes) :
    (decodeHex label text).Uses Op.Reads := uses_ofExcept

theorem wrapWithMasterKey_reads (keyId : KeyId) (version : Nat) (skBytes : Bytes) :
    (ks.wrapWithMasterKey keyId version skBytes).Uses Op.Reads := by
  unfold wrapWithMasterKey
  cases ks.masterKey with
  | none => trivial
  | some masterKey =>
      refine Uses.bind ⟨trivial, fun _ => trivial⟩ fun random => ?_
      simp only
      split
      · trivial
      · trivial

theorem wrapWithCitadelKey_reads (childId : KeyId) (childVersion : Nat) (parentId : KeyId)
    (parentPkHex : String) (skBytes : Bytes) :
    (ks.wrapWithCitadelKey childId childVersion parentId parentPkHex skBytes).Uses Op.Reads := by
  refine Uses.bind (decodeHex_reads _ _) fun pkBytes => ?_
  refine Uses.bind uses_ofExcept fun pk => ?_
  refine Uses.bind ⟨trivial, fun _ => trivial⟩ fun random => ?_
  exact Uses.bind uses_ofExcept fun ciphertext => trivial

theorem wrapSecretKeyFor_reads (keyId : KeyId) (version : Nat) (parentId : Option KeyId)
    (skBytes : Bytes) : (ks.wrapSecretKeyFor keyId version parentId skBytes).Uses Op.Reads := by
  cases parentId with
  | none => exact Uses.bind (wrapWithMasterKey_reads _ _ _) fun material => trivial
  | some parentId =>
      refine Uses.bind ⟨trivial, fun _ => trivial⟩ fun loaded => ?_
      refine Uses.bind uses_ofExcept fun found => ?_
      refine Uses.bind uses_ofOption fun parent => ?_
      split
      · refine Uses.bind uses_ofOption fun parentVersion => ?_
        exact Uses.bind (wrapWithCitadelKey_reads _ _ _ _ _) fun material => trivial
      · exact Uses.bind (wrapWithMasterKey_reads _ _ _) fun material => trivial

/-- The material holds a secret under the master key, or in the clear when there is
no master key. -/
inductive MasterWraps (ks : Keystore) (id : KeyId) (version : Nat) (secret : Bytes) :
    SecretKeyMaterial → Prop where
  | plaintext (unset : ks.masterKey = none) :
      MasterWraps ks id version secret (.plaintext (hexEncode secret))
  | encrypted {masterKey : SizedBytes 32} {nonce : SizedBytes 12} {ciphertext : Bytes}
      (set : ks.masterKey = some masterKey)
      (encrypts : ks.crypto.aesGcmEncrypt (ks.masterWrapKey masterKey id version) nonce secret [] =
        some ciphertext) :
      MasterWraps ks id version secret
        (.encrypted ("enc:" ++ hexEncode nonce.1 ++ hexEncode ciphertext))

/-- A public key in the form in which a version stores it. -/
def StoresPublicKey (ks : Keystore) (publicKeyHex : String) (key : PublicKey) : Prop :=
  ∃ bytes, hexDecode (utf8 publicKeyHex) = .ok bytes ∧
    PublicKey.fromBytes ks.crypto bytes = .ok key

/-- The material holds a secret sealed to a parent's public key. -/
def SealsTo (ks : Keystore) (id : KeyId) (version : Nat) (parentId : String) (key : PublicKey)
    (secret : Bytes) (material : SecretKeyMaterial) : Prop :=
  ∃ coins envelope,
    Envelope.seal ks.crypto coins key secret hierarchyWrapAad
      (hierarchyWrapContext id version parentId) = .ok envelope ∧
    material = .citadelWrapped ("ckw:" ++ hexEncode envelope)

/-- A secret wrapped for a parent, as the stored keys are. -/
inductive Wraps (ks : Keystore) (keys : Keys) (id : KeyId) (version : Nat) (secret : Bytes) :
    Option KeyId → Wrapped → Prop where
  | master {parentId : Option KeyId} {material : SecretKeyMaterial}
      (unsealed : ∀ parent, parentId = some parent →
        ∃ record, keys.find? parent = some record ∧ wrapsChildren record.keyType = false)
      (wraps : MasterWraps ks id version secret material) :
      Wraps ks keys id version secret parentId ⟨material, none, none⟩
  | sealed {parentId : KeyId} {parent : KeyMetadata} {parentVersion : KeyVersion}
      {key : PublicKey} {material : SecretKeyMaterial}
      (found : keys.find? parentId = some parent)
      (sealing : wrapsChildren parent.keyType = true)
      (current : parent.currentKeyVersion = some parentVersion)
      (stores : StoresPublicKey ks parentVersion.publicKeyHex key)
      (seals : SealsTo ks id version parentId.text key secret material) :
      Wraps ks keys id version secret (some parentId)
        ⟨material, some parentId.text, some parentVersion.version⟩

theorem masterWraps_of_run {id : KeyId} {version : Nat} {secret : Bytes}
    {material : SecretKeyMaterial}
    (ran : (ks.wrapWithMasterKey id version secret).run (handle env) world =
      (.ok material, after)) : MasterWraps ks id version secret material := by
  unfold wrapWithMasterKey at ran
  split at ran
  · rename_i unset
    cases ran
    exact .plaintext unset
  · rename_i masterKey set
    simp only [osRng, call_bind, run_perform] at ran
    split at ran
    · cases ran
    · rename_i ciphertext encrypts
      cases ran
      exact .encrypted set encrypts

theorem sealsTo_of_run {id parentId : KeyId} {version : Nat} {secret : Bytes}
    {parentPkHex : String} {material : SecretKeyMaterial}
    (ran : (ks.wrapWithCitadelKey id version parentId parentPkHex secret).run (handle env) world =
      (.ok material, after)) :
    ∃ key, StoresPublicKey ks parentPkHex key ∧
      SealsTo ks id version parentId.text key secret material := by
  obtain ⟨pkBytes, decoded, parsing⟩ := of_run_ofExcept_bind_eq_ok ran
  obtain ⟨key, parsed, sealing⟩ := of_run_ofExcept_bind_eq_ok parsing
  rw [osRng, call_bind, run_perform] at sealing
  obtain ⟨envelope, sealed, done⟩ := of_run_ofExcept_bind_eq_ok sealing
  cases done
  exact ⟨key, ⟨pkBytes, decoded, parsed⟩, env.randomness.sealing, envelope, sealed, rfl⟩

/-- A secret that was wrapped is wrapped for the parent that is stored. -/
theorem wraps_of_run {id : KeyId} {version : Nat} {parentId : Option KeyId} {secret : Bytes}
    {wrapped : Wrapped}
    (ran : (ks.wrapSecretKeyFor id version parentId secret).run (handle env) world =
      (.ok wrapped, after)) : Wraps ks world.keys id version secret parentId wrapped := by
  cases parentId with
  | none =>
      obtain ⟨material, middle, wraps, done⟩ := of_run_bind_eq_ok ran
      cases done
      refine .master ?_ (masterWraps_of_run wraps)
      intro parent impossible
      cases impossible
  | some parentId =>
      obtain ⟨parent, found, wrapping⟩ := find?_of_loaded ran
      split at wrapping
      · rename_i sealing
        obtain ⟨parentVersion, current, rest⟩ := of_run_ofOption_bind_eq_ok wrapping
        obtain ⟨material, middle, wraps, done⟩ := of_run_bind_eq_ok rest
        cases done
        obtain ⟨key, stores, seals⟩ := sealsTo_of_run wraps
        exact .sealed found sealing current stores seals
      · rename_i sealing
        obtain ⟨material, middle, wraps, done⟩ := of_run_bind_eq_ok wrapping
        cases done
        refine .master ?_ (masterWraps_of_run wraps)
        intro other same
        cases same
        exact ⟨parent, found, by simpa using sealing⟩

theorem checkHierarchy_reads (keyType : KeyType) (parentId : Option KeyId) :
    (checkHierarchy keyType parentId).Uses Op.Reads := by
  refine Uses.bind ⟨trivial, fun _ => trivial⟩ fun process => ?_
  cases parentId with
  | none =>
      simp only
      split
      · trivial
      · trivial
  | some parentId =>
      refine Uses.bind ⟨trivial, fun _ => trivial⟩ fun loaded => ?_
      refine Uses.bind uses_ofExcept fun found => ?_
      refine Uses.bind uses_ofOption fun parent => ?_
      split
      · trivial
      · trivial

/-- The place of a new key in the hierarchy, as the stored keys are. `flat` says
that the override is on. -/
inductive Placed (keys : Keys) (flat : Bool) (keyType : KeyType) : Option KeyId → Prop where
  | root (admitted : keyType = .root ∨ flat = true) : Placed keys flat keyType none
  | child {parentId : KeyId} {parent : KeyMetadata} (found : keys.find? parentId = some parent)
      (admitted : parent.keyType.role.canWrap keyType.role = true ∨ flat = true) :
      Placed keys flat keyType (some parentId)

theorem placed_of_checkHierarchy {keyType : KeyType} {parentId : Option KeyId}
    (ran : (checkHierarchy keyType parentId).run (handle env) world = (.ok (), after)) :
    Placed world.keys env.process.flatOverride keyType parentId := by
  unfold checkHierarchy at ran
  rw [processEnv, call_bind, run_perform] at ran
  cases parentId with
  | none =>
      obtain ⟨admitted, -⟩ := of_run_guard_eq_ok ran
      refine .root ?_
      by_cases isRoot : keyType = .root
      · exact Or.inl isRoot
      · exact Or.inr (by simpa [isRoot, handle] using admitted)
  | some parentId =>
      obtain ⟨parent, found, checked⟩ := find?_of_loaded ran
      obtain ⟨admitted, -⟩ := of_run_guard_eq_ok checked
      refine .child found ?_
      by_cases wraps : parent.keyType.role.canWrap keyType.role = true
      · exact Or.inl wraps
      · exact Or.inr (by simpa [wraps, handle] using admitted)

theorem checkExpiration_reads {ε : Type} (record : KeyMetadata) :
    (ks.checkExpiration record : Prog ε ExpirationDecision).Uses Op.Reads := by
  unfold checkExpiration
  split
  · split
    · trivial
    · refine Uses.bind ⟨trivial, fun _ => trivial⟩ fun level => ?_
      exact Uses.bind ⟨trivial, fun _ => trivial⟩ fun now => trivial
  · refine Uses.bind ⟨trivial, fun _ => trivial⟩ fun level => ?_
    simp only
    split
    · exact Uses.bind ⟨trivial, fun _ => trivial⟩ fun now => trivial
    · trivial
  · trivial

/-- Only a key that may still decrypt is ever due. -/
theorem canDecrypt_of_checkExpiration {ε : Type} {record : KeyMetadata} {reason : String}
    {source : ExpirationSource}
    (ran : (ks.checkExpiration record : Prog ε ExpirationDecision).run (handle env) world =
      (.ok (.required reason source), after)) : record.state.canDecrypt = true := by
  unfold checkExpiration at ran
  split at ran
  · rename_i rotated
    rw [rotated]
    rfl
  · rename_i active
    rw [active]
    rfl
  · cases ran

theorem transition_reads (record : KeyMetadata) (target : KeyState) :
    (transition record target).Uses Op.Reads := by
  unfold transition
  split
  · exact Uses.bind ⟨trivial, fun _ => trivial⟩ fun now => trivial
  · trivial

/-- A transition that went through is an edge of the table. -/
theorem of_transition {record moved : KeyMetadata} {target : KeyState}
    (ran : (transition record target).run (handle env) world = (.ok moved, after)) :
    record.state.canTransitionTo target = true ∧
      moved = { record with state := target, updatedAt := world.now } := by
  unfold transition at ran
  split at ran
  · rename_i edge
    rw [utcNow, call_bind, run_perform] at ran
    cases ran
    exact ⟨edge, rfl⟩
  · cases ran

theorem unwrapEncrypted_gets (keyId : KeyId) (version : Nat) (text : String) :
    (ks.unwrapEncrypted keyId version text).Uses Op.Gets := by
  unfold unwrapEncrypted
  split
  · trivial
  · split
    · simp only
      split
      · trivial
      · split
        · refine Uses.bind uses_ofExcept fun nonceBytes => ?_
          refine Uses.bind uses_ofExcept fun ciphertext => ?_
          exact Uses.bind uses_ofExcept fun nonce => uses_ofOption
        · trivial
    · trivial

theorem unwrapSealed_gets (keyId : KeyId) (version : Nat) (parentId : String)
    (parentSkBytes : Bytes) (text : String) :
    (ks.unwrapSealed keyId version parentId parentSkBytes text).Uses Op.Gets := by
  refine Uses.bind uses_ofExcept fun parentSk => ?_
  split
  · exact Uses.bind uses_ofExcept fun ciphertext => uses_ofExcept
  · trivial

theorem unwrapKeyVersionInner_gets (skip : Bool) (levels : Nat) (keyId : KeyId)
    (version : KeyVersion) :
    (ks.unwrapKeyVersionInner skip levels keyId version).Uses Op.Gets := by
  induction levels generalizing keyId version with
  | zero => trivial
  | succ levels ih =>
      unfold unwrapKeyVersionInner
      split
      · trivial
      · exact uses_ofExcept
      · exact unwrapEncrypted_gets _ _ _
      · refine Uses.bind uses_ofOption fun parentId => ?_
        refine Uses.bind ⟨trivial, fun _ => trivial⟩ fun loaded => ?_
        refine Uses.bind uses_ofExcept fun found => ?_
        refine Uses.bind uses_ofOption fun parent => ?_
        split
        · trivial
        · refine Uses.bind uses_ofOption fun parentNumber => ?_
          refine Uses.bind uses_ofOption fun parentVersion => ?_
          exact Uses.bind (ih _ _) fun parentSkBytes => unwrapSealed_gets _ _ _ _ _

theorem unwrapKeyVersionInner_reads (skip : Bool) (levels : Nat) (keyId : KeyId)
    (version : KeyVersion) :
    (ks.unwrapKeyVersionInner skip levels keyId version).Uses Op.Reads :=
  (unwrapKeyVersionInner_gets skip levels keyId version).mono fun _ => Op.Gets.reads

theorem parsePublicKey_reads (publicKeyHex : String) :
    (ks.parsePublicKey publicKeyHex).Uses Op.Reads :=
  Uses.bind (decodeHex_reads _ _) fun _ => uses_ofExcept

theorem storesPublicKey_of_run {publicKeyHex : String} {key : PublicKey}
    (ran : (ks.parsePublicKey publicKeyHex).run (handle env) world = (.ok key, after)) :
    StoresPublicKey ks publicKeyHex key := by
  obtain ⟨bytes, decoded, parsed⟩ := of_run_ofExcept_bind_eq_ok ran
  exact ⟨bytes, decoded, of_run_ofExcept_eq_ok parsed⟩

end Keystore

end Citadel
