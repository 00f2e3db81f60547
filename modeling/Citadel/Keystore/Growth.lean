import Citadel.Keystore.Success

/-!
# Growing a hierarchy

Every tree of keys that obeys the hierarchy can be grown from an empty keystore, each
key pending or active as wanted, by calls that nothing disturbs. `exists_grove` is the
converse of the invariants of this development: the states they speak about exist.
-/

namespace Citadel

open Envelope Program Keystore

/-- Bytes that spell a number. -/
def numbered (count n : Nat) : SizedBytes count := ⟨beBytes count n, beBytes_length count n⟩

/-- The identifier drawn from the bytes of a number. -/
def keyNumbered (n : Nat) : KeyId := .generate (numbered 16 n)

/-- Different random bytes give different identifiers. -/
theorem KeyId.generate_injective : Function.Injective KeyId.generate := by
  intro left right same
  have texts : hexEncode left.1 = hexEncode right.1 := congrArg KeyId.text same
  have digits : hexBytes left.1 = hexBytes right.1 := by
    rw [← utf8_hexEncode, texts, utf8_hexEncode]
  have decoded : hexDecode (hexBytes left.1) = hexDecode (hexBytes right.1) :=
    congrArg hexDecode digits
  rw [hexDecode_hexBytes, hexDecode_hexBytes] at decoded
  exact Subtype.ext (Except.ok.inj decoded)

/-- Numbers within 16 bytes name different keys. -/
theorem keyNumbered_inj {m n : Nat} (left : m < 256 ^ 16) (right : n < 256 ^ 16) :
    keyNumbered m = keyNumbered n ↔ m = n := by
  constructor
  · intro same
    have drawn : numbered 16 m = numbered 16 n := KeyId.generate_injective same
    have bytes : beBytes 16 m = beBytes 16 n := by
      simpa only [numbered] using congrArg Subtype.val drawn
    rw [← beNat_beBytes_of_lt left, bytes, beNat_beBytes_of_lt right]
  · rintro rfl
    rfl

theorem keyNumbered_ne {m n : Nat} (different : m ≠ n) (left : m < 256 ^ 16)
    (right : n < 256 ^ 16) : keyNumbered m ≠ keyNumbered n :=
  fun same => different ((keyNumbered_inj left right).mp same)

/-- Storing a numbered key leaves the others alone. -/
theorem find?_insert_numbered {keys : Keys} {record : KeyMetadata} {m n : Nat}
    (own : record.id = keyNumbered m) (different : n ≠ m) (left : m < 256 ^ 16)
    (right : n < 256 ^ 16) :
    (keys.insert record).find? (keyNumbered n) = keys.find? (keyNumbered n) := by
  refine Table.find?_insert_of_ne keys ?_
  rw [own]
  exact keyNumbered_ne different right left

/-- A numbered key is found once it is stored. -/
theorem find?_insert_own {keys : Keys} {record : KeyMetadata} {id : KeyId} (own : record.id = id) :
    (keys.insert record).find? id = some record := by
  rw [← own]
  exact Table.find?_insert_self keys record

/-- A generated identifier is 32 bytes of text. -/
theorem KeyId.generate_length (random : SizedBytes 16) :
    (utf8 (KeyId.generate random).text).length = 32 := by
  simp [KeyId.generate]

theorem keyNumbered_length (n : Nat) : (utf8 (keyNumbered n).text).length = 32 :=
  KeyId.generate_length (numbered 16 n)

/-- The context of a sealed key fits when its number is short. -/
theorem hierarchyWrapContext_fits {id parentId : KeyId} {version : Nat}
    (own : (utf8 id.text).length = 32) (parent : (utf8 parentId.text).length = 32)
    (short : (utf8 (toString version)).length ≤ 10) :
    (hierarchyWrapContext id version parentId.text).inner.length ≤ WireV2.maxContextLen := by
  have front : (utf8 "secrets|kek-wrap-v2:").length = 20 := by decide
  have colon : (utf8 ":").length = 1 := by decide
  have bar : (utf8 "|").length = 1 := by decide
  rw [hierarchyWrapContext_inner]
  simp only [List.length_append, own, parent, front, colon, bar, WireV2.maxContextLen]
  omega

/-- An environment in which nothing fails and secrets may be stored, with the random
bytes of a number. -/
def quietEnv (n : Nat) : Env where
  level := .low
  process := ⟨true, false, true⟩
  randomness :=
    { keyId := numbered 16 n
      keypair := ⟨numbered 32 n, numbered 64 n⟩
      wrapNonce := numbered 12 n
      sealing := ⟨⟨numbered 32 n, numbered 32 n⟩, some (numbered 12 n)⟩
      signingSeed := numbered 32 n }
  getFault _ := none
  putOutcome _ := .stored
  overwriteFault _ := none
  listFault := none
  order records := records
  order_perm records := .refl records
  flushed := .ok ()

theorem quietEnv_reliable (n : Nat) : (quietEnv n).Reliable :=
  ⟨fun _ => rfl, fun _ => rfl, fun _ => rfl, rfl, rfl⟩

/-- A keystore that can be grown: its backend is correct and seals what the envelope
admits, and it has no master key. -/
structure Growable (ks : Keystore) : Prop where
  lawful : ks.crypto.Lawful
  seals : ks.crypto.Seals
  unset : ks.masterKey = none

theorem Growable.canWrap {ks : Keystore} (growable : Growable ks) (n : Nat) :
    CanWrap ks (quietEnv n) where
  reliable := quietEnv_reliable n
  unset := growable.unset
  devMode := rfl
  seals := growable.seals
  nonce := ⟨numbered 12 n, rfl⟩

/-- The keystore without a master key and policies, over the transparent backend. -/
def plainKeystore : Keystore := ⟨transparent, none, fun _ => none⟩

theorem plainKeystore_growable : Growable plainKeystore :=
  ⟨transparent_lawful, transparent_seals, rfl⟩

/-- One key of a plan; its parent is named by its place in the plan. -/
structure Planting where
  keyType : KeyType
  parent : Option Nat
  state : KeyState
  deriving DecidableEq, Repr

/-- The key to which the secret of a planted key is sealed. -/
def Planting.sealer (entry : Planting) : Option Nat :=
  match entry.keyType with
  | .root => none
  | .domain => none
  | _ => entry.parent

/-- A key can be planted after the keys of a plan. -/
inductive Fits (plan : List Planting) : Planting → Prop where
  | root {state : KeyState} (young : state = .pending ∨ state = .active) :
      Fits plan ⟨.root, none, state⟩
  | child {keyType : KeyType} {n : Nat} {state : KeyState} {parent : Planting}
      (planted : plan[n]? = some parent)
      (rule : parent.keyType.role.canWrap keyType.role = true)
      (young : state = .pending ∨ state = .active) : Fits plan ⟨keyType, some n, state⟩

/-- The plans that obey the hierarchy. -/
inductive Grows : List Planting → Prop where
  | nil : Grows []
  | snoc {plan : List Planting} {entry : Planting} (grows : Grows plan) (fits : Fits plan entry)
      (small : plan.length + 1 < 256 ^ 16) : Grows (plan ++ [entry])

/-- The record of a planted key: one version, under no policy and never used. -/
structure Planted (n : Nat) (entry : Planting) (record : KeyMetadata) (version : KeyVersion) :
    Prop where
  id : record.id = keyNumbered n
  keyType : record.keyType = entry.keyType
  state : record.state = entry.state
  parentId : record.parentId = entry.parent.map keyNumbered
  policyId : record.policyId = none
  usageCount : record.usageCount = 0
  currentVersion : record.currentVersion = 1
  versions : record.versions = [version]
  number : version.version = 1
  wrappedBy : version.wrappingKeyId = entry.sealer.map fun parent => (keyNumbered parent).text
  wrappedAt : version.wrappingKeyVersion = entry.sealer.map fun _ => 1

/-- The keys are those of the plan. -/
structure Grove (keys : Keys) (plan : List Planting) : Prop where
  planted : ∀ n entry, plan[n]? = some entry →
    ∃ record version, keys.find? (keyNumbered n) = some record ∧ Planted n entry record version
  named : ∀ id record, keys.find? id = some record → ∃ n, n < plan.length ∧ id = keyNumbered n

section Planted

variable {n : Nat} {entry : Planting} {record : KeyMetadata} {version : KeyVersion}

theorem Planted.getVersion (planted : Planted n entry record version) :
    record.getVersion 1 = some version := by
  simp [KeyMetadata.getVersion, planted.versions, planted.number]

theorem Planted.current (planted : Planted n entry record version) :
    record.currentKeyVersion = some version := by
  rw [KeyMetadata.currentKeyVersion, planted.currentVersion, planted.getVersion]

/-- An activation changes nothing but the state. -/
theorem Planted.activated {keyType : KeyType} {parent : Option Nat} {state : KeyState}
    (planted : Planted n ⟨keyType, parent, state⟩ record version) (updated now : Nat) :
    Planted n ⟨keyType, parent, .active⟩ (activatedRecord record updated now) version :=
  { planted with
    state := rfl
    wrappedBy := planted.wrappedBy
    wrappedAt := planted.wrappedAt }

end Planted

section Grove

variable {ks : Keystore} {keys : Keys} {plan : List Planting} {entry : Planting}

theorem Grove.empty : Grove Table.empty [] where
  planted := by simp
  named := by simp

/-- The next number is free. -/
theorem Grove.absent (grove : Grove keys plan) {n : Nat} (next : plan.length ≤ n)
    (small : n < 256 ^ 16) : keys.find? (keyNumbered n) = none := by
  match found : keys.find? (keyNumbered n) with
  | none => rfl
  | some record =>
      obtain ⟨m, within, same⟩ := grove.named _ record found
      rw [keyNumbered_inj small (by omega)] at same
      omega

theorem fresh_of_absent {world : World} {n now : Nat} {call : Call}
    (absent : world.keys.find? (keyNumbered n) = none) :
    (Step.mk now (quietEnv n) call).Fresh world := by
  unfold Step.Fresh
  exact absent

theorem Grove.fresh {world : World} (grove : Grove world.keys plan) {n now : Nat} {call : Call}
    (next : plan.length ≤ n) (small : n < 256 ^ 16) :
    (Step.mk now (quietEnv n) call).Fresh world :=
  fresh_of_absent (grove.absent next small)

/-- Storing the last key of a plan, whether it is new or was there before. -/
theorem Grove.put {tail : List Planting} {record : KeyMetadata} {version : KeyVersion}
    (grove : Grove keys (plan ++ tail)) (last : tail.length ≤ 1) (small : plan.length < 256 ^ 16)
    (planted : Planted plan.length entry record version) :
    Grove (keys.insert record) (plan ++ [entry]) where
  planted := by
    intro n other place
    by_cases inside : n < plan.length
    · rw [List.getElem?_append_left inside] at place
      have before : (plan ++ tail)[n]? = some other := by
        rw [List.getElem?_append_left inside, place]
      obtain ⟨found, foundVersion, stored, holds⟩ := grove.planted n other before
      have kept : (keys.insert record).find? (keyNumbered n) = keys.find? (keyNumbered n) :=
        find?_insert_numbered planted.id (by omega) small (by omega)
      exact ⟨found, foundVersion, kept.trans stored, holds⟩
    · obtain ⟨rfl, rfl⟩ : n = plan.length ∧ other = entry := by
        have within : n < (plan ++ [entry]).length :=
          (List.getElem?_eq_some_iff.mp place).1
        rw [List.length_append, List.length_singleton] at within
        obtain rfl : n = plan.length := by omega
        rw [List.getElem?_concat_length] at place
        exact ⟨rfl, (Option.some.inj place).symm⟩
      exact ⟨record, version, find?_insert_own planted.id, planted⟩
  named := by
    intro id found stored
    rw [List.length_append, List.length_singleton]
    rw [Table.find?_insert] at stored
    split at stored
    · rename_i same
      exact ⟨plan.length, by omega, same.trans planted.id⟩
    · obtain ⟨n, within, same⟩ := grove.named id found stored
      rw [List.length_append] at within
      exact ⟨n, by omega, same⟩

/-- The public key of a planted key that is not for signing. -/
theorem Grove.storesPublicKey (lawful : ks.crypto.Lawful) (sound : Sound ks keys)
    {id : KeyId} {record : KeyMetadata} {version : KeyVersion} (found : keys.find? id = some record)
    (live : record.state ≠ .destroyed) (kem : record.keyType ≠ .signing)
    (member : version ∈ record.versions) :
    ∃ key, StoresPublicKey ks version.publicKeyHex key := by
  obtain ⟨secret, -, pair⟩ := sound id record found live version member
  obtain ⟨key, -, stores⟩ := (pair kem).storesPublicKey lawful
  exact ⟨key.publicKey, (stores _).mpr rfl⟩

/-- A planted key is never destroyed. -/
theorem Fits.young {plan : List Planting} (fits : Fits plan entry) :
    entry.state = .pending ∨ entry.state = .active := by
  cases fits with
  | root young => exact young
  | child planted rule young => exact young

theorem Grows.young (grows : Grows plan) {n : Nat} (place : plan[n]? = some entry) :
    entry.state = .pending ∨ entry.state = .active := by
  induction grows with
  | nil => simp at place
  | @snoc plan last grows fits small ih =>
      rw [List.getElem?_append] at place
      split at place
      · exact ih place
      · rw [List.getElem?_singleton] at place
        split at place
        · cases place
          exact fits.young
        · cases place

/-- A live parent can seal the first version of the next key. -/
theorem Grove.sealable (lawful : ks.crypto.Lawful) (sound : Sound ks keys) (grove : Grove keys plan)
    (grows : Grows plan) {n number : Nat} {parent : Planting} (place : plan[n]? = some parent)
    (kem : parent.keyType ≠ .signing) (id : SizedBytes 16)
    (short : (utf8 (toString number)).length ≤ 10) :
    Sealable ks keys (.generate id) number (some (keyNumbered n)) := by
  obtain ⟨record, version, found, planted⟩ := grove.planted n parent place
  by_cases sealing : wrapsChildren record.keyType = true
  · have live : record.state ≠ .destroyed := by
      rw [planted.state]
      rcases grows.young place with state | state <;> simp [state]
    have member : version ∈ record.versions := by simp [planted.versions]
    obtain ⟨key, stores⟩ := Grove.storesPublicKey lawful sound found live
      (planted.keyType ▸ kem) member
    exact .sealed found sealing planted.current stores
      (hierarchyWrapContext_fits (KeyId.generate_length id) (keyNumbered_length n) short)
  · refine .master ?_
    intro other same
    rw [← Option.some.inj same]
    exact ⟨record, found, by simpa using sealing⟩

/-- What the wrapping of a new key names is what the plan says. -/
theorem Grove.names_sealer (grove : Grove keys plan) {state : KeyState} {keyType : KeyType}
    {parent : Option Nat} (fits : Fits plan ⟨keyType, parent, state⟩) {id : KeyId} {number : Nat}
    {secret : Bytes} {wrapped : Wrapped}
    (wraps : Wraps ks keys id number secret (parent.map keyNumbered) wrapped) :
    wrapped.wrappingKeyId =
        (Planting.sealer ⟨keyType, parent, state⟩).map (fun n => (keyNumbered n).text) ∧
      wrapped.wrappingKeyVersion = (Planting.sealer ⟨keyType, parent, state⟩).map fun _ => 1 := by
  cases fits with
  | root young =>
      cases wraps with
      | master unsealed holds => exact ⟨rfl, rfl⟩
  | @child keyType n state parent place rule young =>
      obtain ⟨record, version, found, planted⟩ := grove.planted n parent place
      generalize named : (some n).map keyNumbered = parentId at wraps
      cases wraps with
      | master unsealed holds =>
          obtain ⟨other, also, unable⟩ := unsealed (keyNumbered n) named.symm
          obtain rfl : record = other := Option.some.inj (found.symm.trans also)
          rw [planted.keyType] at unable
          revert rule unable
          cases parent.keyType <;> cases keyType <;>
            simp [KeyType.role, KeyRole.canWrap, wrapsChildren, Planting.sealer]
      | @sealed parentId other otherVersion key material also sealing current stores seals =>
          obtain rfl : keyNumbered n = parentId := Option.some.inj named
          obtain rfl : record = other := Option.some.inj (found.symm.trans also)
          obtain rfl : version = otherVersion :=
            Option.some.inj (planted.current.symm.trans current)
          rw [planted.keyType] at sealing
          rw [planted.number]
          revert rule sealing
          cases parent.keyType <;> cases keyType <;>
            simp [KeyType.role, KeyRole.canWrap, wrapsChildren, Planting.sealer]

/-- The record of a new key is the planted one. -/
theorem Grove.planted_newRecord (grove : Grove keys plan) {state : KeyState} {keyType : KeyType}
    {parent : Option Nat} (fits : Fits plan ⟨keyType, parent, state⟩) {secret : Bytes}
    {wrapped : Wrapped} {name publicKeyHex : String} {now : Nat}
    (wraps : Wraps ks keys (keyNumbered plan.length) 1 secret (parent.map keyNumbered) wrapped) :
    Planted plan.length ⟨keyType, parent, .pending⟩
      (newRecord (keyNumbered plan.length) name keyType none (parent.map keyNumbered) now
        (firstVersion now publicKeyHex wrapped)) (firstVersion now publicKeyHex wrapped) where
  id := rfl
  keyType := rfl
  state := rfl
  parentId := rfl
  policyId := rfl
  usageCount := rfl
  currentVersion := rfl
  versions := rfl
  number := rfl
  wrappedBy := (grove.names_sealer fits wraps).1
  wrappedAt := (grove.names_sealer fits wraps).2

end Grove

/-- The calls that grow a hierarchy. -/
inductive Call.Grows : Call → Prop where
  | generate {name : String} {keyType : KeyType} {policyId : Option PolicyId}
      {parentId : Option KeyId} : Call.Grows (.generate name keyType policyId parentId)
  | generateSigningKey {name : String} {policyId : Option PolicyId} {parentId : KeyId} :
      Call.Grows (.generateSigningKey name policyId parentId)
  | activate {id : KeyId} : Call.Grows (.activate id)

section Steps

variable {ks : Keystore} {plan : List Planting} {world : World} {keyType : KeyType}
  {parent : Option Nat} {state : KeyState}

/-- One more key can be generated. -/
theorem Grove.generate (growable : Growable ks) (sound : Sound ks world.keys)
    (grove : Grove world.keys plan) (grows : Grows plan)
    (fits : Fits plan ⟨keyType, parent, state⟩) (small : plan.length < 256 ^ 16) (now : Nat) :
    ∃ call : Call, call.Grows ∧ (∀ id, call ≠ .activate id) ∧
      Grove ((Step.mk now (quietEnv plan.length) call).run ks world).2.keys
        (plan ++ [⟨keyType, parent, .pending⟩]) ∧
      ((Step.mk now (quietEnv plan.length) call).run ks world).2.replay = world.replay := by
  have can := growable.canWrap plan.length
  have put : ∀ {record : KeyMetadata} {version : KeyVersion},
      Planted plan.length ⟨keyType, parent, .pending⟩ record version →
      Grove (world.keys.insert record) (plan ++ [⟨keyType, parent, .pending⟩]) := by
    intro record version planted
    have whole : Grove world.keys (plan ++ []) := by simpa using grove
    exact whole.put (by simp) small planted
  by_cases signing : keyType = .signing
  · subst signing
    cases fits with
    | @child keyType n state parent place rule young =>
        obtain ⟨record, version, found, planted⟩ := grove.planted n parent place
        have sealable := grove.sealable growable.lawful sound grows place
          (by revert rule; cases parent.keyType <;> simp [KeyType.role, KeyRole.canWrap])
          (numbered 16 plan.length) (by decide : (utf8 (toString 1)).length ≤ 10)
        obtain ⟨wrapped, ran, wraps⟩ : ∃ wrapped, (ks.generateSigningKey "" none
            (keyNumbered n)).run (handle (quietEnv plan.length)) { world with now := now } = _ ∧ _ :=
          generateSigningKey_run can found (planted.keyType ▸ rule) sealable
        refine ⟨.generateSigningKey "" none (keyNumbered n), .generateSigningKey, by simp, ?_⟩
        simp only [Step.run, Call.run, Call.prog, Step.enter, run_bind, ran, andThen_ok, run_ret,
          pure_eq_ret]
        exact ⟨put (grove.planted_newRecord (.child place rule young) wraps), trivial⟩
  · have placed : Placed world.keys (quietEnv plan.length).process.flatOverride keyType
        (parent.map keyNumbered) := by
      cases fits with
      | root young => exact .root (.inl rfl)
      | @child keyType n state parent place rule young =>
          obtain ⟨record, version, found, planted⟩ := grove.planted n parent place
          exact .child found (.inl (planted.keyType ▸ rule))
    have sealable : Sealable ks world.keys (.generate (numbered 16 plan.length)) 1
        (parent.map keyNumbered) := by
      cases fits with
      | root young =>
          refine .master ?_
          simp
      | @child keyType n state parent place rule _ =>
          exact grove.sealable growable.lawful sound grows place
            (by revert rule; cases parent.keyType <;> simp [KeyType.role, KeyRole.canWrap]) _
            (by decide)
    obtain ⟨wrapped, ran, wraps⟩ : ∃ wrapped, (ks.generate "" keyType none
        (parent.map keyNumbered)).run (handle (quietEnv plan.length)) { world with now := now } =
          _ ∧ _ := generate_run can signing placed sealable
    refine ⟨.generate "" keyType none (parent.map keyNumbered), .generate, by simp, ?_⟩
    simp only [Step.run, Call.run, Call.prog, Step.enter, run_bind, ran, andThen_ok, run_ret,
      pure_eq_ret]
    exact ⟨put (grove.planted_newRecord fits wraps), trivial⟩

/-- The last key can be activated. -/
theorem Grove.activate (grove : Grove world.keys (plan ++ [⟨keyType, parent, .pending⟩]))
    (small : plan.length < 256 ^ 16) (now : Nat) (n : Nat) :
    Grove ((Step.mk now (quietEnv n) (.activate (keyNumbered plan.length))).run ks world).2.keys
        (plan ++ [⟨keyType, parent, .active⟩]) ∧
      ((Step.mk now (quietEnv n) (.activate (keyNumbered plan.length))).run ks world).2.replay =
        world.replay := by
  obtain ⟨record, version, found, planted⟩ := grove.planted plan.length _
    List.getElem?_concat_length
  have edge : record.state.canTransitionTo .active = true := by rw [planted.state]; rfl
  have ran : (Keystore.activate (keyNumbered plan.length)).run (handle (quietEnv n))
      { world with now := now } = _ := activate_run (quietEnv_reliable n) found edge
  simp only [Step.run, Call.run, Call.prog, Step.enter, run_bind, ran, andThen_ok, run_ret,
    pure_eq_ret]
  exact ⟨grove.put (by simp) small (planted.activated now now), trivial⟩

end Steps

/-- Every plan that obeys the hierarchy can be grown, and the replay store is not
touched. -/
theorem exists_grove {ks : Keystore} (growable : Growable ks) {allowed : Step → World → Prop}
    (now : Nat) (replay : ReplayStore)
    (allows : ∀ n call world plan, Call.Grows call → Grows plan → Grove world.keys plan →
      allowed ⟨now, quietEnv n, call⟩ world)
    {plan : List Planting} (grows : Grows plan) :
    ∃ world, Reachable ks allowed world ∧ Grove world.keys plan ∧ world.replay = replay := by
  induction grows with
  | nil => exact ⟨.initial now replay, ⟨now, replay, .refl⟩, Grove.empty, rfl⟩
  | @snoc plan entry grows fits small ih =>
      obtain ⟨world, reachable, grove, unused⟩ := ih
      obtain ⟨keyType, parent, state⟩ := entry
      obtain ⟨call, kind, -, grown, kept⟩ :=
        grove.generate growable (reachable.sound growable.lawful).1
        grows fits (by omega) now
      have fresh : (Step.mk now (quietEnv plan.length) call).Fresh world :=
        grove.fresh (le_refl _) (by omega)
      obtain ⟨start, store, reaches⟩ := reachable
      have first := reaches.step _ fresh (allows plan.length call world plan kind grows grove)
      rcases fits.young with pending | active
      · obtain rfl : state = .pending := pending
        exact ⟨_, ⟨start, store, first⟩, grown, kept.trans unused⟩
      · obtain rfl : state = .active := active
        have pending : Fits plan ⟨keyType, parent, .pending⟩ := by
          cases fits with
          | root young => exact .root (.inl rfl)
          | child place rule young => exact .child place rule (.inl rfl)
        have second := first.step ⟨now, quietEnv (plan.length + 1),
          .activate (keyNumbered plan.length)⟩ (grown.fresh (by simp) small)
          (allows _ _ _ _ .activate (grows.snoc pending small) grown)
        obtain ⟨activated, still⟩ := grown.activate (by omega) now (plan.length + 1)
        exact ⟨_, ⟨start, store, second⟩, activated, still.trans (kept.trans unused)⟩

/-- One more step of a run. -/
theorem Reachable.step {ks : Keystore} {allowed : Step → World → Prop} {world : World}
    (reachable : Reachable ks allowed world) (step : Step) (fresh : step.Fresh world)
    (allows : allowed step world) : Reachable ks allowed (step.run ks world).2 := by
  obtain ⟨now, replay, reaches⟩ := reachable
  exact ⟨now, replay, reaches.step step fresh allows⟩

/-- A state reached under a condition is reached. -/
theorem Reachable.any {ks : Keystore} {allowed : Step → World → Prop} {world : World}
    (reachable : Reachable ks allowed world) : Reachable ks anyStep world := by
  obtain ⟨now, replay, reaches⟩ := reachable
  refine ⟨now, replay, ?_⟩
  induction reaches with
  | refl => exact .refl
  | step step prior fresh allows ih => exact .step step ih fresh trivial

/-- The secret of a planted key that is not for signing, which fits an envelope. -/
theorem Planted.secret {ks : Keystore} {keys : Keys} (sound : Sound ks keys) {n : Nat}
    {entry : Planting} {record : KeyMetadata} {version : KeyVersion}
    (planted : Planted n entry record version) (found : keys.find? (keyNumbered n) = some record)
    (live : entry.state ≠ .destroyed) (kem : entry.keyType ≠ .signing) :
    ∃ secret, Holds ks keys (keyNumbered n) version secret ∧
      secret.length ≤ WireV2.maxPlaintextLen := by
  have member : version ∈ record.versions := by simp [planted.versions]
  obtain ⟨secret, holds, pair⟩ := sound _ record found (planted.state ▸ live) version member
  obtain ⟨key, rfl, -⟩ := pair (planted.keyType ▸ kem)
  refine ⟨key.toBytes, holds, ?_⟩
  rw [SecretKey.toBytes_length]
  decide

/-- One key of each level, from a root down to a data key. -/
def line (root domain kek dek : KeyState) : List Planting :=
  [⟨.root, none, root⟩, ⟨.domain, some 0, domain⟩, ⟨.keyEncrypting, some 1, kek⟩,
    ⟨.dataEncrypting, some 2, dek⟩]

section Line

variable {ks : Keystore} {keys : Keys} {root domain kek dek : KeyState}

theorem line_grows
    (young : ∀ state ∈ [root, domain, kek, dek], state = .pending ∨ state = .active) :
    Grows (line root domain kek dek) := by
  have first : Grows [⟨.root, none, root⟩] := Grows.nil.snoc (.root (young root (by simp))) (by simp)
  have second := first.snoc
    (.child rfl rfl (young domain (by simp)) : Fits _ ⟨.domain, some 0, domain⟩) (by simp)
  have third := second.snoc
    (.child rfl rfl (young kek (by simp)) : Fits _ ⟨.keyEncrypting, some 1, kek⟩) (by simp)
  exact third.snoc (.child rfl rfl (young dek (by simp))) (by simp)

/-- The keys of a line can be grown, each pending or active. -/
theorem exists_line (growable : Growable ks) (allowed : Step → World → Prop) (replay : ReplayStore)
    (root domain kek dek : KeyState)
    (young : ∀ state ∈ [root, domain, kek, dek], state = .pending ∨ state = .active)
    (allows : ∀ n call world plan, Call.Grows call → Grows plan → Grove world.keys plan →
      allowed ⟨0, quietEnv n, call⟩ world) :
    ∃ world, Reachable ks allowed world ∧ Grove world.keys (line root domain kek dek) ∧
      world.replay = replay :=
  exists_grove growable 0 replay allows (line_grows young)

/-- A key under a key-encrypting key belongs to the domain above that. -/
theorem Grove.resolves_under_kek {plan : List Planting} {keyType : KeyType} {state : KeyState}
    (grove : Grove keys plan) (domainPlace : plan[1]? = some ⟨.domain, some 0, domain⟩)
    (kekPlace : plan[2]? = some ⟨.keyEncrypting, some 1, kek⟩)
    (place : plan[3]? = some ⟨keyType, some 2, state⟩) (below : keyType ≠ .domain)
    (notRoot : keyType ≠ .root) : ResolvesTo keys 10 (keyNumbered 3) (keyNumbered 1) := by
  obtain ⟨record, version, found, planted⟩ := grove.planted 3 _ place
  obtain ⟨kekRecord, kekVersion, kekFound, kekPlanted⟩ := grove.planted 2 _ kekPlace
  obtain ⟨domainRecord, domainVersion, domainFound, domainPlanted⟩ := grove.planted 1 _ domainPlace
  refine .parent found ?_ ?_ planted.parentId (.parent kekFound ?_ ?_ kekPlanted.parentId
    (.domain domainFound domainPlanted.keyType))
  · simp [planted.keyType, below]
  · simp [planted.keyType, notRoot]
  · simp [kekPlanted.keyType]
  · simp [kekPlanted.keyType]

/-- The data key of a line belongs to the domain of the line. -/
theorem Grove.resolves (grove : Grove keys (line root domain kek dek)) :
    ResolvesTo keys 10 (keyNumbered 3) (keyNumbered 1) :=
  grove.resolves_under_kek rfl rfl rfl nofun nofun

/-- The chain of a version under an active key-encrypting key can be followed as long as
the keys above it stay as they are. -/
theorem Grove.recoverable_under_kek {plan : List Planting} {later : Keys} {skip : Bool}
    {version : KeyVersion} (grove : Grove keys plan)
    (domainPlace : plan[1]? = some ⟨.domain, some 0, .active⟩)
    (kekPlace : plan[2]? = some ⟨.keyEncrypting, some 1, .active⟩)
    (above : ∀ n, n < 3 → later.find? (keyNumbered n) = keys.find? (keyNumbered n))
    (wrappedBy : version.wrappingKeyId = some (keyNumbered 2).text)
    (wrappedAt : version.wrappingKeyVersion = some 1) :
    Recoverable later skip (maxUnwrapDepth + 1) version := by
  obtain ⟨kekRecord, kekVersion, kekFound, kekPlanted⟩ := grove.planted 2 _ kekPlace
  obtain ⟨domainRecord, domainVersion, domainFound, domainPlanted⟩ := grove.planted 1 _ domainPlace
  rw [← above 2 (by decide)] at kekFound
  rw [← above 1 (by decide)] at domainFound
  refine .sealed wrappedBy wrappedAt kekFound ?_ (.inr ?_) kekPlanted.getVersion
    (.sealed kekPlanted.wrappedBy kekPlanted.wrappedAt domainFound ?_ (.inr ?_)
      domainPlanted.getVersion (.master domainPlanted.wrappedBy))
  · simp [kekPlanted.state]
  · simp [kekPlanted.state, KeyState.canDecrypt]
  · simp [domainPlanted.state]
  · simp [domainPlanted.state, KeyState.canDecrypt]

/-- The recorded chain of the data key can be followed as long as the keys above it stay
as they are and may decrypt. -/
theorem Grove.recoverable {later : Keys} {skip : Bool}
    (grove : Grove keys (line root .active .active dek))
    (above : ∀ n, n < 3 → later.find? (keyNumbered n) = keys.find? (keyNumbered n))
    {record : KeyMetadata} {version : KeyVersion}
    (planted : Planted 3 ⟨.dataEncrypting, some 2, dek⟩ record version) :
    Recoverable later skip (maxUnwrapDepth + 1) version :=
  grove.recoverable_under_kek rfl rfl above planted.wrappedBy planted.wrappedAt

/-- A data key under no policy may encrypt, from a record that need not be the stored
one. -/
theorem encryptable_of_unbound {env : Env} {world : World} {record : KeyMetadata}
    {version : KeyVersion} {key : PublicKey} (active : record.state = .active)
    (data : record.keyType = .dataEncrypting) (unbound : record.policyId = none)
    (current : record.currentKeyVersion = some version)
    (stores : StoresPublicKey ks version.publicKeyHex key) :
    Encryptable ks env world record version key where
  active := active
  data := by rw [data]; rfl
  unblocked := ⟨none, by simp [verdictAt, effectivePolicyFor, unbound], rfl⟩
  current := current
  stores := stores

/-- Whatever the envelope admits is sealed. -/
theorem Growable.sealed (growable : Growable ks) (n m : Nat) (key : PublicKey) {plaintext : Bytes}
    {aad : Aad} {context : Context} (plaintextFits : plaintext.length ≤ WireV2.maxPlaintextLen)
    (aadFits : aad.inner.length ≤ 1024)
    (contextFits : context.inner.length ≤ WireV2.maxContextLen) :
    ∃ ciphertext, Envelope.seal ks.crypto (quietEnv n).randomness.sealing key plaintext
      (domainBoundAad (keyNumbered m) aad) context = .ok ciphertext := by
  refine growable.seals _ _ key plaintext _ context plaintextFits ?_ contextFits
  have colon : (utf8 ":").length = 1 := by decide
  simp only [domainBoundAad, Aad.raw, List.length_append, keyNumbered_length, colon,
    WireV2.maxAadLen]
  omega

/-- An encryption that has read the planted data key of a line. The line must stand in
the state that it finds, the record need not. -/
theorem Planted.encrypt (growable : Growable ks) {record : KeyMetadata} {version : KeyVersion}
    (planted : Planted 3 ⟨.dataEncrypting, some 2, .active⟩ record version) {key : PublicKey}
    (stores : StoresPublicKey ks version.publicKeyHex key) (world : World)
    (resolves : ResolvesTo world.keys 10 (keyNumbered 3) (keyNumbered 1)) (n : Nat)
    (plaintext : Bytes) (aad : Aad) (context : Context)
    (plaintextFits : plaintext.length ≤ WireV2.maxPlaintextLen)
    (aadFits : aad.inner.length ≤ 1024)
    (contextFits : context.inner.length ≤ WireV2.maxContextLen) :
    ∃ blob, blob.keyVersion = 1 ∧
      Resumes (quietEnv n) world (ks.encrypt (keyNumbered 3) plaintext aad context)
        (keyNumbered 3) record (.ok blob,
          { world with keys := world.keys.insert (usedRecord record world.now) }) := by
  obtain ⟨ciphertext, sealed⟩ := growable.sealed n 1 key plaintextFits aadFits contextFits
  exact ⟨_, planted.currentVersion, encrypt_resumes (quietEnv_reliable n)
    (encryptable_of_unbound planted.state planted.keyType planted.policyId planted.current stores)
    resolves sealed⟩

/-- The same when the record has been used once. -/
theorem Planted.encrypt_used (growable : Growable ks) {record : KeyMetadata} {version : KeyVersion}
    (planted : Planted 3 ⟨.dataEncrypting, some 2, .active⟩ record version) {key : PublicKey}
    (stores : StoresPublicKey ks version.publicKeyHex key) (usedAt : Nat) (world : World)
    (resolves : ResolvesTo world.keys 10 (keyNumbered 3) (keyNumbered 1)) (n : Nat)
    (plaintext : Bytes) (aad : Aad) (context : Context)
    (plaintextFits : plaintext.length ≤ WireV2.maxPlaintextLen)
    (aadFits : aad.inner.length ≤ 1024)
    (contextFits : context.inner.length ≤ WireV2.maxContextLen) :
    ∃ blob, blob.keyVersion = 1 ∧
      Resumes (quietEnv n) world (ks.encrypt (keyNumbered 3) plaintext aad context)
        (keyNumbered 3) (usedRecord record usedAt) (.ok blob, { world with
          keys := world.keys.insert (usedRecord (usedRecord record usedAt) world.now) }) := by
  obtain ⟨ciphertext, sealed⟩ := growable.sealed n 1 key plaintextFits aadFits contextFits
  have encryptable : Encryptable ks (quietEnv n) world (usedRecord record usedAt) version key :=
    encryptable_of_unbound planted.state planted.keyType planted.policyId planted.current stores
  exact ⟨_, planted.currentVersion,
    encrypt_resumes (quietEnv_reliable n) encryptable resolves sealed⟩

/-- A use of a key leaves every domain where it was. -/
theorem keepsPlaces_usedRecord {record : KeyMetadata} {now : Nat}
    (found : keys.find? record.id = some record) :
    KeepsPlaces keys (keys.insert (usedRecord record now)) :=
  KeepsPlaces.insert found rfl rfl

/-- The data key of a line and its public key. -/
theorem Grove.dataKey (growable : Growable ks) (sound : Sound ks keys)
    (grove : Grove keys (line root domain kek .active)) :
    ∃ record version key, keys.find? (keyNumbered 3) = some record ∧
      Planted 3 ⟨.dataEncrypting, some 2, .active⟩ record version ∧
      StoresPublicKey ks version.publicKeyHex key := by
  obtain ⟨record, version, found, planted⟩ := grove.planted 3 _ rfl
  have member : version ∈ record.versions := by simp [planted.versions]
  obtain ⟨key, stores⟩ := Grove.storesPublicKey growable.lawful sound found
    (by simp [planted.state]) (by simp [planted.keyType]) member
  exact ⟨record, version, key, found, planted, stores⟩

end Line

/-- A data key under the first of two key-encrypting keys. -/
def twoParents : List Planting :=
  [⟨.root, none, .active⟩, ⟨.domain, some 0, .active⟩, ⟨.keyEncrypting, some 1, .active⟩,
    ⟨.dataEncrypting, some 2, .active⟩, ⟨.keyEncrypting, some 1, .active⟩]

theorem twoParents_grows : Grows twoParents := by
  have first : Grows (line .active .active .active .active) := line_grows (by simp)
  exact first.snoc (.child rfl rfl (.inr rfl)) (by simp [line])

theorem exists_twoParents : ∃ world, Reachable plainKeystore anyStep world ∧
    Grove world.keys twoParents := by
  obtain ⟨world, reachable, grove, -⟩ : ∃ world, Reachable plainKeystore anyStep world ∧
      Grove world.keys twoParents ∧ world.replay = .memory ⟨1, []⟩ :=
    exists_grove plainKeystore_growable 0 _ (fun _ _ _ _ _ _ _ => trivial) twoParents_grows
  exact ⟨world, reachable, grove⟩

end Citadel
