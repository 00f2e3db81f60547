import Citadel.Keystore.Governed
import Citadel.Keystore.Rewrapping

/-!
# What a rewrapped key still depends on

`rewrap` wraps the current version of a key for the new parent. The versions before it
stay wrapped as they were, so the old parent can be given up exactly if none of them, and
nothing above the new parent, needs it.
-/

namespace Citadel

open Envelope Program

namespace Keystore

variable {ks : Keystore} {keys : Keys}

/-! ### Chains -/

/-- Unwrapping a version reads version `number` of key `ancestor`. The chain is followed
through the versions of other keys that `through` admits. -/
inductive ReadsThrough (keys : Keys) (through : KeyId → Nat → Prop) :
    KeyVersion → KeyId → Nat → Prop where
  | link {version : KeyVersion} {parentId : String} {number : Nat}
      (wrappedBy : version.wrappingKeyId = some parentId)
      (wrappedAt : version.wrappingKeyVersion = some number) :
      ReadsThrough keys through version ⟨parentId⟩ number
  | above {version : KeyVersion} {parentId : String} {recorded : Nat} {parent : KeyMetadata}
      {parentVersion : KeyVersion} {ancestor : KeyId} {number : Nat}
      (wrappedBy : version.wrappingKeyId = some parentId)
      (wrappedAt : version.wrappingKeyVersion = some recorded)
      (follows : through ⟨parentId⟩ recorded) (found : keys.find? ⟨parentId⟩ = some parent)
      (lookup : parent.getVersion recorded = some parentVersion)
      (reads : ReadsThrough keys through parentVersion ancestor number) :
      ReadsThrough keys through version ancestor number

/-- A version depends on a version of a key if that is anywhere on its chain. -/
abbrev DependsOn (keys : Keys) : KeyVersion → KeyId → Nat → Prop :=
  ReadsThrough keys fun _ _ => True

/-- Every version but one. -/
def But (self : KeyId) (current : Nat) (id : KeyId) (number : Nat) : Prop :=
  ¬ (id = self ∧ number = current)

/-- No version of the key depends on an outdated version of a key. -/
def Freed (keys : Keys) (record : KeyMetadata) (outdated : KeyId → Nat → Prop) : Prop :=
  ∀ number version, record.getVersion number = some version →
    ∀ ancestor recorded, DependsOn keys version ancestor recorded → ¬ outdated ancestor recorded

/-- The condition on the keys before the rewrap: neither the historical versions of the key
nor, where it seals, the new parent depend on anything outdated. The chains end at the
version that is wrapped anew. -/
def LeavesNothing (keys : Keys) (before parent : KeyMetadata) (parentId : KeyId)
    (outdated : KeyId → Nat → Prop) : Prop :=
  (∀ number version, before.getVersion number = some version → number ≠ before.currentVersion →
    ∀ ancestor recorded,
      ReadsThrough keys (But before.id before.currentVersion) version ancestor recorded →
        ¬ outdated ancestor recorded) ∧
  (wrapsChildren parent.keyType = true → parentId ≠ before.id →
    ∀ version, parent.currentKeyVersion = some version → ∀ ancestor recorded,
      ReadsThrough keys (But before.id before.currentVersion) version ancestor recorded →
        ¬ outdated ancestor recorded)

/-- What is outdated after a rewrap: the previous parent, unless it is the new one, and the
older versions of the new parent. -/
def Outdated (previous : Option KeyId) (parentId : KeyId) (latest : Nat) (id : KeyId)
    (number : Nat) : Prop :=
  previous = some id ∧ id ≠ parentId ∨ id = parentId ∧ number ≠ latest

/-! ### Chains across a rewrap -/

section After

variable {before parent : KeyMetadata} {now : Nat} {wrapped : Wrapped} {parentId : KeyId}

/-- What the new wrapping names: nothing, or the latest version of a parent that seals. -/
inductive WrappedUnder (parent : KeyMetadata) (parentId : KeyId) (wrapped : Wrapped) : Prop where
  | master (unable : wrapsChildren parent.keyType = false)
      (unwrapped : wrapped.wrappingKeyId = none)
  | sealed {version : KeyVersion} (sealing : wrapsChildren parent.keyType = true)
      (wrappedBy : wrapped.wrappingKeyId = some parentId.text)
      (wrappedAt : wrapped.wrappingKeyVersion = some parent.currentVersion)
      (current : parent.currentKeyVersion = some version)

theorem Wraps.wrappedUnder {id : KeyId} {number : Nat} {secret : Bytes}
    (wraps : Wraps ks keys id number secret (some parentId) wrapped) :
    ∃ parent, keys.find? parentId = some parent ∧ WrappedUnder parent parentId wrapped := by
  cases wraps with
  | master unsealed holds =>
      obtain ⟨parent, found, unable⟩ := unsealed parentId rfl
      exact ⟨parent, found, .master unable rfl⟩
  | sealed found sealing current stores seals =>
      refine ⟨_, found, .sealed sealing rfl ?_ current⟩
      exact congrArg some (KeyMetadata.version_of_getVersion current)

/-- What the rewrapped version depends on, read over the keys before the rewrap. -/
inductive NewlyReads (keys : Keys) (before parent : KeyMetadata) (parentId : KeyId)
    (ancestor : KeyId) (number : Nat) : Prop where
  | parent (same : ancestor = parentId) (latest : number = parent.currentVersion)
  | above {version : KeyVersion} (sealing : wrapsChildren parent.keyType = true)
      (other : parentId ≠ before.id) (current : parent.currentKeyVersion = some version)
      (reads : ReadsThrough keys (But before.id before.currentVersion) version ancestor number)

/-- A chain before the rewrap that ends at the rewrapped version is a chain after it. -/
theorem ReadsThrough.after (found : keys.find? before.id = some before) {version : KeyVersion}
    {ancestor : KeyId} {number : Nat}
    (reads : ReadsThrough keys (But before.id before.currentVersion) version ancestor number) :
    DependsOn (afterRewrap keys before now wrapped) version ancestor number := by
  induction reads with
  | link wrappedBy wrappedAt => exact .link wrappedBy wrappedAt
  | above wrappedBy wrappedAt follows present lookup reads ih =>
      obtain ⟨later, laterFound, -, laterLookup⟩ :=
        lookup_afterRewrap found present lookup follows
      exact .above wrappedBy wrappedAt trivial laterFound laterLookup ih

/-- A chain after the rewrap stays on the keys as they were until it reaches the rewrapped
version, and from there it goes on above the new parent. -/
theorem reads_of_after (found : keys.find? before.id = some before)
    (parentFound : keys.find? parentId = some parent)
    (under : WrappedUnder parent parentId wrapped) {version : KeyVersion} {ancestor : KeyId}
    {number : Nat}
    (depends : DependsOn (afterRewrap keys before now wrapped) version ancestor number) :
    (ReadsThrough keys (But before.id before.currentVersion) version ancestor number ∨
      NewlyReads keys before parent parentId ancestor number) ∧
    (∀ old, version = rewrappedVersion wrapped old →
      NewlyReads keys before parent parentId ancestor number) := by
  induction depends with
  | @link version upId number wrappedBy wrappedAt =>
      refine ⟨.inl (.link wrappedBy wrappedAt), ?_⟩
      rintro old rfl
      cases under with
      | master unable unwrapped =>
          rw [rewrappedVersion, unwrapped] at wrappedBy
          cases wrappedBy
      | sealed sealing namedBy namedAt current =>
          rw [rewrappedVersion, namedBy] at wrappedBy
          rw [rewrappedVersion, namedAt] at wrappedAt
          cases wrappedBy
          cases wrappedAt
          exact .parent rfl rfl
  | @above version upId recorded up upVersion ancestor number wrappedBy wrappedAt _ upFound
      upLookup reads ih =>
      obtain ⟨old, oldVersion, oldFound, -, oldLookup, same⟩ :=
        lookup_of_afterRewrap found upFound upLookup
      obtain ⟨onward, renewed⟩ := ih
      by_cases isSelf : (⟨upId⟩ : KeyId) = before.id ∧ recorded = before.currentVersion
      · rw [if_pos isSelf] at same
        have newly := renewed oldVersion same
        exact ⟨.inr newly, fun _ _ => newly⟩
      · rw [if_neg isSelf] at same
        subst same
        constructor
        · rcases onward with reads | newly
          · exact .inl (.above wrappedBy wrappedAt isSelf oldFound oldLookup reads)
          · exact .inr newly
        · rintro own rfl
          cases under with
          | master unable unwrapped =>
              rw [rewrappedVersion, unwrapped] at wrappedBy
              cases wrappedBy
          | sealed sealing namedBy namedAt current =>
              rw [rewrappedVersion, namedBy] at wrappedBy
              rw [rewrappedVersion, namedAt] at wrappedAt
              cases wrappedBy
              cases wrappedAt
              rcases onward with reads | newly
              · obtain rfl : parent = old := Option.some.inj (parentFound.symm.trans oldFound)
                refine .above sealing ?_ oldLookup reads
                -- the key itself as parent is the case above
                intro isOwn
                rw [isOwn, found] at parentFound
                cases parentFound
                exact isSelf ⟨isOwn, rfl⟩
              · exact newly

/-- What the new wrapping names is not outdated. -/
theorem NewlyReads.not_outdated {ancestor : KeyId} {number : Nat} {previous : Option KeyId}
    (newly : NewlyReads keys before parent parentId ancestor number)
    (nothing : LeavesNothing keys before parent parentId
      (Outdated previous parentId parent.currentVersion)) :
    ¬ Outdated previous parentId parent.currentVersion ancestor number := by
  cases newly with
  | parent same latest =>
      rintro (⟨-, other⟩ | ⟨-, older⟩)
      · exact other same
      · exact older latest
  | above sealing other current reads => exact nothing.2 sealing other _ current _ _ reads

/-- After a rewrap the key is freed exactly if nothing is left behind. -/
theorem freed_afterRewrap_iff (found : keys.find? before.id = some before)
    (parentFound : keys.find? parentId = some parent)
    (under : WrappedUnder parent parentId wrapped) {version : KeyVersion}
    (current : before.currentKeyVersion = some version) (previous : Option KeyId) :
    Freed (afterRewrap keys before now wrapped) (rewrappedRecord before now wrapped)
        (Outdated previous parentId parent.currentVersion) ↔
      LeavesNothing keys before parent parentId
        (Outdated previous parentId parent.currentVersion) := by
  constructor
  · intro freed
    constructor
    · intro number old lookup historical ancestor recorded reads
      refine freed number old ?_ ancestor recorded (reads.after found)
      rw [getVersion_rewrappedRecord, if_neg historical, lookup]
    · intro sealing other above aboveCurrent ancestor recorded reads
      cases under with
      | master unable unwrapped =>
          rw [sealing] at unable
          cases unable
      | sealed _ namedBy namedAt _ =>
          have own : (rewrappedRecord before now wrapped).getVersion before.currentVersion =
              some (rewrappedVersion wrapped version) := by
            rw [getVersion_rewrappedRecord, if_pos rfl]
            exact congrArg (Option.map (rewrappedVersion wrapped)) current
          have kept : (afterRewrap keys before now wrapped).find? ⟨parentId.text⟩ = some parent := by
            rw [find?_afterRewrap found]
            exact (if_neg other).trans parentFound
          exact freed _ _ own ancestor recorded
            (.above namedBy namedAt trivial kept aboveCurrent (reads.after found))
  · intro nothing number stored lookup ancestor recorded depends
    obtain ⟨onward, renewed⟩ := reads_of_after found parentFound under depends
    rw [getVersion_rewrappedRecord] at lookup
    by_cases isCurrent : number = before.currentVersion
    · rw [if_pos isCurrent] at lookup
      obtain ⟨old, -, rewrapped⟩ := Option.map_eq_some_iff.mp lookup
      exact (renewed old rewrapped.symm).not_outdated nothing
    · rw [if_neg isCurrent] at lookup
      rcases onward with reads | newly
      · exact nothing.1 number stored lookup isCurrent ancestor recorded reads
      · exact newly.not_outdated nothing

end After

/-! ### Giving up the previous parent -/

/-- The tables differ in one key at most, which keeps its place. -/
structure DiffersAt (key : KeyId) (keys later : Keys) : Prop where
  others : ∀ id, id ≠ key → later.find? id = keys.find? id
  places : KeepsPlaces keys later

theorem DiffersAt.refl (key : KeyId) (keys : Keys) : DiffersAt key keys keys :=
  ⟨fun _ _ => rfl, fun _ record found => ⟨record, found, rfl, rfl⟩⟩

/-- One more write to the key. -/
theorem DiffersAt.insert {key : KeyId} {later : Keys} {before record : KeyMetadata}
    (differs : DiffersAt key keys later) (found : later.find? key = some before)
    (own : record.id = before.id) (sameType : record.keyType = before.keyType)
    (sameParent : record.parentId = before.parentId) : DiffersAt key keys (later.insert record) := by
  have isKey : record.id = key := own.trans (Table.key_of_find? found)
  constructor
  · intro id other
    rw [Table.find?_insert_of_ne _ (isKey ▸ other), differs.others id other]
  · intro id old present
    obtain ⟨kept, keptFound, keptType, keptParent⟩ := differs.places id old present
    obtain ⟨last, lastFound, lastType, lastParent⟩ :=
      KeepsPlaces.insert (isKey ▸ found) sameType sameParent id kept keptFound
    exact ⟨last, lastFound, lastType.trans keptType, lastParent.trans keptParent⟩

/-- A version that does not depend on a key is unwrapped without it. -/
theorem Unwraps.differs {key : KeyId} {later : Keys} (differs : DiffersAt key keys later)
    {skip : Bool} {levels : Nat} {id : KeyId} {version : KeyVersion} {secret : Bytes}
    (unwraps : Unwraps ks keys skip levels id version secret)
    (independent : ∀ number, ¬ DependsOn keys version key number) :
    Unwraps ks later skip levels id version secret := by
  induction unwraps with
  | plaintext material decodes => exact .plaintext material decodes
  | encrypted material opens => exact .encrypted material opens
  | @sealed levels id version text parentId parent number parentVersion parentSecret secret
      material wrappedBy found readable wrappedAt lookup unwraps opens ih =>
      have other : (⟨parentId⟩ : KeyId) ≠ key := by
        rintro rfl
        exact independent number (.link wrappedBy wrappedAt)
      refine .sealed material wrappedBy ((differs.others _ other).trans found) readable wrappedAt
        lookup (ih fun recorded reads => ?_) opens
      exact independent recorded (.above wrappedBy wrappedAt trivial found lookup reads)

/-- The calls that retire a key or destroy it. -/
inductive Retires (key : KeyId) : Call → Prop where
  | revoke : Retires key (.revoke key)
  | expire : Retires key (.expire key)
  | destroy : Retires key (.destroy key)

/-- Such a step writes no other key. -/
theorem DiffersAt.step {key : KeyId} {world : World} (differs : DiffersAt key keys world.keys)
    {step : Step} (retires : Retires key step.call) :
    DiffersAt key keys (step.run ks world).2.keys := by
  refine Step.keys_invariant (DiffersAt key keys) ?_ differs
  intro later record held mayWrite
  obtain ⟨now, env, call⟩ := step
  have change := mayWrite.change
  cases retires with
  | revoke =>
      cases change with
      | revoked found active => exact held.insert found rfl rfl rfl
  | expire =>
      cases change with
      | expired found usable => exact held.insert found rfl rfl rfl
  | destroy =>
      cases change with
      | destroyed found edge => exact held.insert found rfl rfl rfl

theorem DiffersAt.steps {key : KeyId} {steps : List Step} {world : World}
    (differs : DiffersAt key keys world.keys) (retire : ∀ step ∈ steps, Retires key step.call) :
    DiffersAt key keys (playSteps ks steps world).keys := by
  induction steps generalizing world with
  | nil => exact differs
  | cons step rest ih =>
      refine ih (differs.step (retire step List.mem_cons_self)) fun later member => ?_
      exact retire later (List.mem_cons_of_mem _ member)

/-- Every blob of the key that decrypts in one state decrypts in the other, at the same
time and threat level, when the backend answers and the blob was not seen. -/
def StaysDecryptable (ks : Keystore) (world later : World) (id : KeyId) : Prop :=
  ∀ (env other : Env) now blob aad context plaintext, blob.keyId = id.text →
    other.Reliable → other.level = env.level → SlotFree ks { later with now := now } blob →
    ((ks.decrypt blob aad context).run (handle env) { world with now := now }).1 = .ok plaintext →
    ((ks.decrypt blob aad context).run (handle other) { later with now := now }).1 = .ok plaintext

/-- The previous parent can be retired and destroyed. -/
def OutlivesParent (ks : Keystore) (world : World) (id : KeyId) (previous : Option KeyId)
    (parentId : KeyId) : Prop :=
  ∀ key, previous = some key → key ≠ parentId → key ≠ id →
    ∀ steps : List Step, (∀ step ∈ steps, Retires key step.call) →
      StaysDecryptable ks world (playSteps ks steps world) id

/-- What is decrypted without a key is decrypted when only that key differs. -/
theorem DiffersAt.staysDecryptable {key id : KeyId} {world later : World} {record : KeyMetadata}
    (differs : DiffersAt key world.keys later.keys) (other : id ≠ key)
    (found : world.keys.find? id = some record)
    (independent : ∀ number version, record.getVersion number = some version →
      ∀ recorded, ¬ DependsOn world.keys version key recorded) :
    StaysDecryptable ks world later id := by
  intro env reader now blob aad context plaintext ofKey reliable sameLevel free ran
  obtain rfl : id = ⟨blob.keyId⟩ := by rw [ofKey]
  refine run_of_decrypts reliable free ?_
  cases decrypts_of_run (Prod.ext ran rfl) with
  | intro present usable notExpired lookup decodes long resolves carries unwraps parses opens =>
      obtain rfl : record = _ := Option.some.inj (found.symm.trans present)
      exact .intro ((differs.others _ other).trans present) usable (sameLevel ▸ notExpired) lookup
        decodes long (resolves.keeps differs.places) carries
        (Unwraps.differs differs unwraps (independent _ _ lookup)) parses opens

/-- After a rewrap no version of the key depends on the previous parent or on an older
version of the new one, so that the previous parent can be given up, exactly if nothing
was left behind: the rewrap itself moves the current version only. -/
theorem rewrap_frees_iff (ks : Keystore) (env : Env) (world after : World) (id parentId : KeyId)
    (before parent : KeyMetadata) (version : KeyVersion)
    (found : world.keys.find? id = some before)
    (parentFound : world.keys.find? parentId = some parent)
    (current : before.currentKeyVersion = some version)
    (ran : (ks.rewrap id (some parentId)).run (handle env) world = (.ok (), after)) :
    (∃ kept, after.keys.find? id = some kept ∧ Freed after.keys kept
        (Outdated (version.wrappingKeyId.map KeyId.mk) parentId parent.currentVersion)) ∧
      OutlivesParent ks after id (version.wrappingKeyId.map KeyId.mk) parentId ↔
    LeavesNothing world.keys before parent parentId
      (Outdated (version.wrappingKeyId.map KeyId.mk) parentId parent.currentVersion) := by
  obtain ⟨moved, secret, rewraps⟩ := rewraps_of_run ran
  cases rewraps with
  | @intro same wrapped also _ unwraps wraps =>
      obtain rfl : before = same := Option.some.inj (found.symm.trans also)
      obtain ⟨above, aboveFound, under⟩ := Wraps.wrappedUnder wraps
      obtain rfl : parent = above := Option.some.inj (parentFound.symm.trans aboveFound)
      have own : before.id = id := Table.key_of_find? found
      subst own
      have kept : (world.keys.insert (rewrappedRecord before world.now wrapped)).find? before.id =
          some (rewrappedRecord before world.now wrapped) := Table.find?_insert_self _ _
      have freed : Freed (afterRewrap world.keys before world.now wrapped) _ _ ↔ _ :=
        freed_afterRewrap_iff found parentFound under current (version.wrappingKeyId.map KeyId.mk)
      constructor
      · rintro ⟨⟨record, stored, free⟩, -⟩
        obtain rfl : rewrappedRecord before world.now wrapped = record :=
          Option.some.inj (kept.symm.trans stored)
        exact freed.mp free
      · intro nothing
        have free := freed.mpr nothing
        refine ⟨⟨_, kept, free⟩, ?_⟩
        intro key previous notParent notSelf steps retire
        have start := DiffersAt.refl key ({ world with
          keys := world.keys.insert (rewrappedRecord before world.now wrapped) } : World).keys
        refine DiffersAt.staysDecryptable (start.steps retire) (Ne.symm notSelf) kept ?_
        intro number stored lookup recorded depends
        exact free number stored lookup key recorded depends (.inl ⟨previous, notParent⟩)

end Keystore

open Keystore

/-! ### A version left behind -/

/-- Above a version that a planted domain key wraps there is only that key. -/
theorem Planted.reads_domain {keys : Keys} {through : KeyId → Nat → Prop} {n root : Nat}
    {top : KeyMetadata} {topVersion version : KeyVersion}
    (planted : Planted n ⟨.domain, some root, .active⟩ top topVersion)
    (found : keys.find? (keyNumbered n) = some top)
    (wrappedBy : version.wrappingKeyId = some (keyNumbered n).text)
    (wrappedAt : version.wrappingKeyVersion = some 1) {ancestor : KeyId} {number : Nat}
    (reads : ReadsThrough keys through version ancestor number) : ancestor = keyNumbered n := by
  have unwrapped : topVersion.wrappingKeyId = none := planted.wrappedBy
  cases reads with
  | @link _ parentId _ namedBy namedAt =>
      obtain rfl : (keyNumbered n).text = parentId :=
        Option.some.inj (wrappedBy.symm.trans namedBy)
      rfl
  | @above _ parentId recorded parent parentVersion _ _ namedBy namedAt follows present lookup
      reads =>
      obtain rfl : (keyNumbered n).text = parentId :=
        Option.some.inj (wrappedBy.symm.trans namedBy)
      obtain rfl : 1 = recorded := Option.some.inj (wrappedAt.symm.trans namedAt)
      obtain rfl : top = parent := Option.some.inj (found.symm.trans present)
      obtain rfl : topVersion = parentVersion :=
        Option.some.inj (planted.getVersion.symm.trans lookup)
      cases reads with
      | link again => cases unwrapped.symm.trans again
      | above again => cases unwrapped.symm.trans again

/-- Above a version that a planted key-encrypting key wraps there are only that key, in its first
version, and the domain key. -/
theorem Planted.reads_kek {keys : Keys} {through : KeyId → Nat → Prop} {n domain root : Nat}
    {kek top : KeyMetadata} {kekVersion topVersion version : KeyVersion}
    (planted : Planted n ⟨.keyEncrypting, some domain, .active⟩ kek kekVersion)
    (found : keys.find? (keyNumbered n) = some kek)
    (topPlanted : Planted domain ⟨.domain, some root, .active⟩ top topVersion)
    (topFound : keys.find? (keyNumbered domain) = some top)
    (wrappedBy : version.wrappingKeyId = some (keyNumbered n).text)
    (wrappedAt : version.wrappingKeyVersion = some 1) {ancestor : KeyId} {number : Nat}
    (reads : ReadsThrough keys through version ancestor number) :
    ancestor = keyNumbered n ∧ number = 1 ∨ ancestor = keyNumbered domain := by
  cases reads with
  | @link _ parentId _ namedBy namedAt =>
      obtain rfl : (keyNumbered n).text = parentId :=
        Option.some.inj (wrappedBy.symm.trans namedBy)
      exact .inl ⟨rfl, (Option.some.inj (wrappedAt.symm.trans namedAt)).symm⟩
  | @above _ parentId recorded parent parentVersion _ _ namedBy namedAt follows present lookup
      reads =>
      obtain rfl : (keyNumbered n).text = parentId :=
        Option.some.inj (wrappedBy.symm.trans namedBy)
      obtain rfl : 1 = recorded := Option.some.inj (wrappedAt.symm.trans namedAt)
      obtain rfl : kek = parent := Option.some.inj (found.symm.trans present)
      obtain rfl : kekVersion = parentVersion :=
        Option.some.inj (planted.getVersion.symm.trans lookup)
      exact .inr (topPlanted.reads_domain topFound planted.wrappedBy planted.wrappedAt reads)

/-- A data key that was rewrapped under another parent and then rotated: its first version is
wrapped by the other parent, and its second one by its own parent. -/
structure MovedAndRotated (world : World) (record : KeyMetadata) (first second : KeyVersion)
    (secret : Bytes) : Prop where
  reachable : Reachable plainKeystore anyStep world
  stored : world.keys.find? (keyNumbered 3) = some record
  versions : record.versions = [first, second]
  currentVersion : record.currentVersion = 2
  firstNumber : first.version = 1
  secondNumber : second.version = 2
  firstBy : first.wrappingKeyId = some (keyNumbered 4).text
  firstAt : first.wrappingKeyVersion = some 1
  secondBy : second.wrappingKeyId = some (keyNumbered 2).text
  secondAt : second.wrappingKeyVersion = some 1
  holds : Holds plainKeystore world.keys (keyNumbered 3) second secret

theorem exists_movedAndRotated : ∃ (start world : World) (record : KeyMetadata)
      (first second : KeyVersion) (secret : Bytes),
    Grove start.keys twoParents ∧
      (∀ n, n < 7 → n ≠ 3 →
        world.keys.find? (keyNumbered n) = start.keys.find? (keyNumbered n)) ∧
      secret.length ≤ WireV2.maxPlaintextLen ∧
      MovedAndRotated world record first second secret := by
  obtain ⟨start, reached, grove⟩ := exists_twoParents
  have sound := (reached.sound transparent_lawful).1
  obtain ⟨record, version, found, planted⟩ := grove.planted 3 _ rfl
  obtain ⟨kek, kekVersion, kekFound, kekPlanted⟩ := grove.planted 2 _ rfl
  obtain ⟨parent, parentVersion, parentFound, parentPlanted⟩ := grove.planted 4 _ rfl
  obtain ⟨secret, holds, fits⟩ := planted.secret sound found nofun nofun
  have unwraps := (grove.recoverable_under_kek rfl rfl (fun _ _ => rfl) planted.wrappedBy
    planted.wrappedAt : Recoverable start.keys true (maxUnwrapDepth + 1) version).unwraps
      transparent_lawful sound holds
  have sealable : Sealable plainKeystore start.keys (keyNumbered 3) version.version
      (some (keyNumbered 4)) := by
    rw [planted.number]
    exact parentPlanted.sealable transparent_lawful sound parentFound (by decide)
  obtain ⟨wrapped, ran, wraps⟩ := rewrap_run (plainKeystore_growable.canWrap 5) found
    planted.current unwraps sealable fits
  let moved := rewrappedRecord record start.now wrapped
  have own : moved.id = keyNumbered 3 := planted.id
  have step := reached.step (Step.mk start.now (quietEnv 5)
    (.rewrap (keyNumbered 3) (some (keyNumbered 4)))) (grove.fresh (by decide) (by decide)) trivial
  rw [Step.run_of_prog (fun fuel => by
    rw [Call.prog, run_bind, ran, andThen_ok, pure_eq_ret, run_ret])] at step
  have others : ∀ n, n < 7 → n ≠ 3 → (start.keys.insert moved).find? (keyNumbered n) =
      start.keys.find? (keyNumbered n) := fun n small different =>
    find?_insert_numbered own different (by decide) (by omega)
  obtain ⟨world, second, reachable, rotated⟩ := kekPlanted.rotate plainKeystore_growable step
    ((others 2 (by decide) (by decide)).trans kekFound) (find?_insert_own own) planted.state
    planted.currentVersion planted.parentId
    ((others 6 (by decide) (by decide)).trans (grove.absent (by decide) (by decide)))
  obtain ⟨firstBy, firstAt⟩ := parentPlanted.names parentFound wraps
  have versions : (rotatedRecord moved start.now second).versions =
      [rewrappedVersion wrapped version, second] := by
    simp [moved, rotatedRecord, rewrappedRecord, updateVersion, planted.versions,
      planted.currentVersion, planted.number]
  refine ⟨start, world, _, _, second, _, grove, ?_, kemKeyPair_fits _, reachable, rotated.stored,
    versions, rotated.number, planted.number, rotated.number, firstBy, firstAt, rotated.wrappedBy,
    rotated.wrappedAt, rotated.holds⟩
  intro n small different
  exact (rotated.others _ (keyNumbered_ne different (by omega) (by decide))).trans
    (others n small different)

/-- The domain key is neither of the two parents. -/
theorem not_outdated_domain {number : Nat} (latest : Nat) :
    ¬ Outdated (some (keyNumbered 2)) (keyNumbered 4) latest (keyNumbered 1) number := by
  rintro (⟨same, -⟩ | ⟨same, -⟩)
  · exact keyNumbered_ne (by decide) (by decide) (by decide) (Option.some.inj same)
  · exact keyNumbered_ne (by decide) (by decide) (by decide) same

/-- A key whose history was wrapped elsewhere leaves nothing behind. -/
theorem rotated_key_freed :
    ∃ world after before parent, Reachable plainKeystore anyStep world ∧
      world.keys.find? (keyNumbered 3) = some before ∧ before.versions.length = 2 ∧
      world.keys.find? (keyNumbered 4) = some parent ∧
      (plainKeystore.rewrap (keyNumbered 3) (some (keyNumbered 4))).run (handle (quietEnv 5)) world =
        (.ok (), after) ∧
      (∃ kept, after.keys.find? (keyNumbered 3) = some kept ∧ Freed after.keys kept
        (Outdated (some (keyNumbered 2)) (keyNumbered 4) parent.currentVersion)) ∧
      OutlivesParent plainKeystore after (keyNumbered 3) (some (keyNumbered 2)) (keyNumbered 4) := by
  obtain ⟨start, world, before, first, second, secret, grove, above, fits, moved⟩ :=
    exists_movedAndRotated
  obtain ⟨sound, -⟩ := moved.reachable.sound transparent_lawful
  obtain ⟨domain, domainVersion, domainFound, domainPlanted⟩ := grove.planted 1 _ rfl
  obtain ⟨parent, parentVersion, parentFound, parentPlanted⟩ := grove.planted 4 _ rfl
  rw [← above 1 (by decide) (by decide)] at domainFound
  rw [← above 4 (by decide) (by decide)] at parentFound
  have current : before.currentKeyVersion = some second := by
    simp [KeyMetadata.currentKeyVersion, KeyMetadata.getVersion, moved.versions,
      moved.currentVersion, moved.firstNumber, moved.secondNumber]
  have chain : Recoverable world.keys true (maxUnwrapDepth + 1) second :=
    grove.recoverable_under_kek rfl rfl (fun n small => above n (by omega) (by omega))
      moved.secondBy moved.secondAt
  have unwraps := chain.unwraps transparent_lawful sound moved.holds
  have sealable : Sealable plainKeystore world.keys (keyNumbered 3) second.version
      (some (keyNumbered 4)) := by
    rw [moved.secondNumber]
    exact parentPlanted.sealable transparent_lawful sound parentFound (by decide)
  obtain ⟨wrapped, ran, -⟩ := rewrap_run (plainKeystore_growable.canWrap 5) moved.stored current
    unwraps sealable fits
  have previous : second.wrappingKeyId.map KeyId.mk = some (keyNumbered 2) := by
    rw [moved.secondBy]
    rfl
  have frees := rewrap_frees_iff plainKeystore (quietEnv 5) world _ (keyNumbered 3) (keyNumbered 4)
    before parent second moved.stored parentFound current ran
  rw [previous] at frees
  refine ⟨world, _, before, parent, moved.reachable, moved.stored, by simp [moved.versions],
    parentFound, ran, frees.mpr ⟨?_, ?_⟩⟩
  -- the first version is wrapped by the new parent
  · intro number stored lookup historical ancestor recorded reads
    have member := KeyMetadata.mem_of_getVersion lookup
    have numbered := KeyMetadata.version_of_getVersion lookup
    rw [moved.currentVersion] at historical
    rw [moved.versions] at member
    obtain rfl | rfl : stored = first ∨ stored = second := by simpa using member
    · rcases parentPlanted.reads_kek parentFound domainPlanted domainFound moved.firstBy
        moved.firstAt reads with ⟨rfl, rfl⟩ | rfl
      · rintro (⟨-, other⟩ | ⟨-, older⟩)
        · exact other rfl
        · exact older parentPlanted.currentVersion.symm
      · exact not_outdated_domain parent.currentVersion
    · exact absurd (numbered.symm.trans moved.secondNumber) historical
  · intro sealing other latest newest ancestor recorded reads
    obtain rfl : parentVersion = latest := Option.some.inj (parentPlanted.current.symm.trans newest)
    obtain rfl := domainPlanted.reads_domain domainFound parentPlanted.wrappedBy
      parentPlanted.wrappedAt reads
    exact not_outdated_domain parent.currentVersion

/-- A version from before a rotation stays wrapped by the previous parent. -/
theorem historical_version_left_behind :
    ∃ world after before parent version, Reachable plainKeystore anyStep world ∧
      world.keys.find? (keyNumbered 3) = some before ∧
      world.keys.find? (keyNumbered 4) = some parent ∧
      before.currentKeyVersion = some version ∧
      version.wrappingKeyId.map KeyId.mk = some (keyNumbered 2) ∧
      (plainKeystore.rewrap (keyNumbered 3) (some (keyNumbered 4))).run (handle (quietEnv 6)) world =
        (.ok (), after) ∧
      ∀ kept, after.keys.find? (keyNumbered 3) = some kept → ¬ Freed after.keys kept
        (Outdated (some (keyNumbered 2)) (keyNumbered 4) parent.currentVersion) := by
  obtain ⟨start, reached, grove⟩ := exists_twoParents
  obtain ⟨record, first, found, planted⟩ := grove.planted 3 _ rfl
  obtain ⟨kek, kekVersion, kekFound, kekPlanted⟩ := grove.planted 2 _ rfl
  obtain ⟨world, second, reachable, rotated⟩ := kekPlanted.rotate plainKeystore_growable reached
    kekFound found planted.state planted.currentVersion planted.parentId
    (grove.absent (by decide) (by decide) : start.keys.find? (keyNumbered 5) = none)
  obtain ⟨sound, -⟩ := reachable.sound transparent_lawful
  obtain ⟨parent, parentVersion, parentFound, parentPlanted⟩ := grove.planted 4 _ rfl
  rw [← rotated.others _ (keyNumbered_ne (by decide) (by decide) (by decide))] at parentFound
  have above : ∀ n, n < 3 → world.keys.find? (keyNumbered n) = start.keys.find? (keyNumbered n) :=
    fun n small => rotated.others _ (keyNumbered_ne (by omega) (by omega) (by decide))
  have current : (rotatedRecord record start.now second).currentKeyVersion = some second := by
    simp [KeyMetadata.currentKeyVersion, KeyMetadata.getVersion, rotatedRecord, planted.versions,
      planted.number, rotated.number]
  have unwraps := (grove.recoverable_under_kek rfl rfl above rotated.wrappedBy rotated.wrappedAt :
    Recoverable world.keys true (maxUnwrapDepth + 1) second).unwraps transparent_lawful sound
      rotated.holds
  have sealable : Sealable plainKeystore world.keys (keyNumbered 3) second.version
      (some (keyNumbered 4)) := by
    rw [rotated.number]
    exact parentPlanted.sealable transparent_lawful sound parentFound (by decide)
  obtain ⟨wrapped, ran, -⟩ := rewrap_run (plainKeystore_growable.canWrap 6) rotated.stored current
    unwraps sealable (kemKeyPair_fits _)
  have previous : second.wrappingKeyId.map KeyId.mk = some (keyNumbered 2) := by
    rw [rotated.wrappedBy]
    rfl
  refine ⟨world, _, _, parent, second, reachable, rotated.stored, parentFound, current, previous,
    ran, ?_⟩
  intro kept stored freed
  have own : (rewrappedRecord (rotatedRecord record start.now second) world.now wrapped).id =
      keyNumbered 3 := planted.id
  obtain rfl := Option.some.inj ((find?_insert_own own).symm.trans stored)
  -- the first version is the one that was left behind
  have lookup : (rewrappedRecord (rotatedRecord record start.now second) world.now wrapped).getVersion
      1 = some first := by
    have older : 1 ≠ (rotatedRecord record start.now second).currentVersion := by
      rw [rotatedRecord, rotated.number]
      intro same
      cases same
    rw [getVersion_rewrappedRecord, if_neg older]
    exact getVersion_rotatedRecord planted.getVersion _ _
  refine freed 1 first lookup (keyNumbered 2) 1 (.link planted.wrappedBy planted.wrappedAt)
    (.inl ⟨rfl, ?_⟩)
  exact keyNumbered_ne (by decide) (by decide) (by decide)

end Citadel
