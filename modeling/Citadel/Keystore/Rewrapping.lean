import Citadel.Keystore.LifecycleSafety
import Citadel.Keystore.RoundTrip

/-!
# Rewrapping

`rewrap` replaces the only stored copy of a secret. The code does not ask whether the
new parent can be unwrapped without the key itself: the secret survives exactly when
the new parent's own chain reaches the master key, within the depth that is left,
without passing through the version that is being rewrapped.
-/

namespace Citadel

open Envelope Program

namespace Keystore

variable {ks : Keystore} {keys : Keys}

/-! ### What a rewrap does -/

/-- What a successful `rewrap` did. -/
inductive Rewraps (ks : Keystore) (world : World) (id : KeyId) (newParentId : Option KeyId)
    (version : KeyVersion) (secret : Bytes) : World → Prop where
  | intro {before : KeyMetadata} {wrapped : Wrapped} (found : world.keys.find? id = some before)
      (current : before.currentKeyVersion = some version)
      (unwraps : Unwraps ks world.keys true (maxUnwrapDepth + 1) id version secret)
      (wraps : Wraps ks world.keys id version.version secret newParentId wrapped) :
      Rewraps ks world id newParentId version secret
        { world with keys := world.keys.insert (rewrappedRecord before world.now wrapped) }

theorem rewraps_of_run {env : Env} {world after : World} {id : KeyId}
    {newParentId : Option KeyId}
    (ran : (ks.rewrap id newParentId).run (handle env) world = (.ok (), after)) :
    ∃ version secret, Rewraps ks world id newParentId version secret after := by
  have neutral : ∀ op, Op.Reads op → ∀ world, (handle env op world).2 = world :=
    fun op reads => handle_of_reads reads
  have body := of_run_mapErr_eq_ok ran
  obtain ⟨before, got, rest⟩ := (get_reads id).mapErr.of_run_bind_eq_ok neutral body
  obtain ⟨version, current, rest⟩ := of_run_ofOption_bind_eq_ok rest
  obtain ⟨secret, unwrapped, rest⟩ :=
    (unwrapKeyVersionInner_reads _ _ _ _).mapErr.of_run_bind_eq_ok neutral rest
  obtain ⟨wrapped, wrapping, rest⟩ :=
    (wrapSecretKeyFor_reads _ _ _ _).mapErr.of_run_bind_eq_ok neutral rest
  rw [utcNow, call_bind, run_perform] at rest
  cases of_put_eq_ok rest
  exact ⟨version, secret, .intro (find?_of_get (of_run_mapErr_eq_ok got)) current
    (unwraps_of_run (of_run_mapErr_eq_ok unwrapped)) (wraps_of_run (of_run_mapErr_eq_ok wrapping))⟩

/-- A `rewrap` that does not succeed changes no record, when a failed `put` stores
nothing. -/
theorem keys_of_rewrap_ne_ok {env : Env} {world : World} {id : KeyId}
    {newParentId : Option KeyId} (atomic : env.AtomicPut)
    (failed : ((ks.rewrap id newParentId).run (handle env) world).1 ≠ .ok ()) :
    ((ks.rewrap id newParentId).run (handle env) world).2.keys = world.keys := by
  have neutral : ∀ op, Op.Reads op → ∀ world,
      (fun (_ : World) (_ : Op) => True) world op ∧ (handle env op world).2 = world :=
    fun op reads world => ⟨trivial, handle_of_reads reads world⟩
  have meets : (ks.rewrap id newParentId).Meets (alone (handle env) fun _ _ => True) world
      fun (after : World) outcome => outcome ≠ .ok () → after.keys = world.keys := by
    refine Meets.mapErr ?_
    refine Meets.bindUses (get_reads id).mapErr neutral ?_ (fun _ _ _ => rfl) (fun _ _ _ => rfl)
    intro before _
    refine Meets.bindUses uses_ofOption neutral ?_ (fun _ _ _ => rfl) (fun _ _ _ => rfl)
    intro version _
    refine Meets.bindUses (unwrapKeyVersionInner_reads _ _ _ _).mapErr neutral ?_
      (fun _ _ _ => rfl) (fun _ _ _ => rfl)
    intro secret _
    refine Meets.bindUses (wrapSecretKeyFor_reads _ _ _ _).mapErr neutral ?_
      (fun _ _ _ => rfl) (fun _ _ _ => rfl)
    intro wrapped _
    refine Meets.performAlone trivial (Meets.performAlone trivial ?_)
    simp only [handle]
    rcases atomic (rewrappedRecord before world.now wrapped).id with stored | ⟨error, refused⟩
    · rw [stored]
      exact fun impossible => absurd rfl impossible
    · rw [refused]
      exact fun _ => rfl
  exact meets.runAlone failed

/-! ### A parent that leaves the secret recoverable -/

/-- The chain of a version ends in the master key within `levels` records and never
reaches version `number` of key `self`. -/
inductive RecoverableWithout (keys : Keys) (self : KeyId) (number : Nat) :
    Nat → KeyId → KeyVersion → Prop where
  | master {levels : Nat} {id : KeyId} {version : KeyVersion}
      (other : ¬ (id = self ∧ version.version = number))
      (wrappedBy : version.wrappingKeyId = none) :
      RecoverableWithout keys self number (levels + 1) id version
  | sealed {levels : Nat} {id : KeyId} {version : KeyVersion} {parentId : String} {recorded : Nat}
      {parent : KeyMetadata} {parentVersion : KeyVersion}
      (other : ¬ (id = self ∧ version.version = number))
      (wrappedBy : version.wrappingKeyId = some parentId)
      (wrappedAt : version.wrappingKeyVersion = some recorded)
      (found : keys.find? ⟨parentId⟩ = some parent) (live : parent.state ≠ .destroyed)
      (lookup : parent.getVersion recorded = some parentVersion)
      (chain : RecoverableWithout keys self number levels ⟨parentId⟩ parentVersion) :
      RecoverableWithout keys self number (levels + 1) id version

/-- Whether version `number` of key `self` can be unwrapped once it is wrapped for the
new parent: the master key wraps it, or the parent is recoverable without it. -/
def SafeParent (keys : Keys) (self : KeyId) (number : Nat) : Option KeyId → Prop
  | none => True
  | some parentId => ∀ parent, keys.find? parentId = some parent →
      wrapsChildren parent.keyType = true →
      parent.state ≠ .destroyed ∧ ∀ version, parent.currentKeyVersion = some version →
        RecoverableWithout keys self number maxUnwrapDepth parentId version

theorem RecoverableWithout.notSelf {self id : KeyId} {number levels : Nat} {version : KeyVersion}
    (chain : RecoverableWithout keys self number levels id version) :
    ¬ (id = self ∧ version.version = number) := by
  cases chain with
  | master other => exact other
  | sealed other => exact other

theorem RecoverableWithout.mono {self id : KeyId} {number levels more : Nat} {version : KeyVersion}
    (chain : RecoverableWithout keys self number levels id version) (le : levels ≤ more) :
    RecoverableWithout keys self number more id version := by
  induction chain generalizing more with
  | master other wrappedBy =>
      obtain ⟨more, rfl⟩ := Nat.exists_eq_succ_of_ne_zero (show more ≠ 0 by omega)
      exact .master other wrappedBy
  | sealed other wrappedBy wrappedAt found live lookup chain ih =>
      obtain ⟨more, rfl⟩ := Nat.exists_eq_succ_of_ne_zero (show more ≠ 0 by omega)
      exact .sealed other wrappedBy wrappedAt found live lookup (ih (by omega))

/-! ### The table after a rewrap -/

section After

variable {self : KeyId} {before : KeyMetadata} {now : Nat} {wrapped : Wrapped}

/-- The keys after version `before.currentVersion` was wrapped anew. -/
def afterRewrap (keys : Keys) (before : KeyMetadata) (now : Nat) (wrapped : Wrapped) : Keys :=
  keys.insert (rewrappedRecord before now wrapped)

theorem find?_afterRewrap (found : keys.find? self = some before) (id : KeyId) :
    (afterRewrap keys before now wrapped).find? id =
      if id = self then some (rewrappedRecord before now wrapped) else keys.find? id := by
  have own : before.id = self := Table.key_of_find? found
  rw [afterRewrap, Table.find?_insert, show (rewrappedRecord before now wrapped).id = self from own]

/-- Every version but the rewrapped one is found as before. -/
theorem lookup_afterRewrap (found : keys.find? self = some before) {id : KeyId} {recorded : Nat}
    {parent : KeyMetadata} {version : KeyVersion} (present : keys.find? id = some parent)
    (lookup : parent.getVersion recorded = some version)
    (other : ¬ (id = self ∧ recorded = before.currentVersion)) :
    ∃ later, (afterRewrap keys before now wrapped).find? id = some later ∧
      later.state = parent.state ∧ later.getVersion recorded = some version := by
  rw [find?_afterRewrap found]
  by_cases isSelf : id = self
  · rw [isSelf, found] at present
    cases present
    refine ⟨rewrappedRecord before now wrapped, if_pos isSelf, rfl, ?_⟩
    rw [getVersion_rewrappedRecord, if_neg (fun same => other ⟨isSelf, same⟩)]
    exact lookup
  · exact ⟨parent, (if_neg isSelf).trans present, rfl, lookup⟩

/-- A link to a version whose chain avoids the rewrapped one still holds. -/
theorem RecoverableWithout.link (found : keys.find? self = some before) {levels recorded : Nat}
    {parentId : String} {parent : KeyMetadata} {version parentVersion : KeyVersion}
    (wrappedBy : version.wrappingKeyId = some parentId)
    (wrappedAt : version.wrappingKeyVersion = some recorded)
    (present : keys.find? ⟨parentId⟩ = some parent) (live : parent.state ≠ .destroyed)
    (lookup : parent.getVersion recorded = some parentVersion)
    (chain : RecoverableWithout keys self before.currentVersion levels ⟨parentId⟩ parentVersion)
    (recoverable : Recoverable (afterRewrap keys before now wrapped) true levels parentVersion) :
    Recoverable (afterRewrap keys before now wrapped) true (levels + 1) version := by
  have other : ¬ ((⟨parentId⟩ : KeyId) = self ∧ recorded = before.currentVersion) := by
    rintro ⟨isSelf, same⟩
    refine chain.notSelf ⟨isSelf, ?_⟩
    rw [KeyMetadata.version_of_getVersion lookup, same]
  obtain ⟨later, laterFound, sameState, laterLookup⟩ := lookup_afterRewrap found present lookup other
  exact .sealed wrappedBy wrappedAt laterFound (sameState ▸ live) (Or.inl rfl) laterLookup
    recoverable

/-- A chain that avoids the rewrapped version is not affected. -/
theorem RecoverableWithout.recoverable (found : keys.find? self = some before) {levels : Nat}
    {id : KeyId} {version : KeyVersion}
    (chain : RecoverableWithout keys self before.currentVersion levels id version) :
    Recoverable (afterRewrap keys before now wrapped) true levels version := by
  induction chain with
  | master other wrappedBy => exact .master wrappedBy
  | sealed other wrappedBy wrappedAt present live lookup chain ih =>
      exact chain.link found wrappedBy wrappedAt present live lookup ih

/-- A lookup after the rewrap, read back over the keys before it. -/
theorem lookup_of_afterRewrap (found : keys.find? self = some before) {id : KeyId}
    {recorded : Nat} {parent : KeyMetadata} {version : KeyVersion}
    (present : (afterRewrap keys before now wrapped).find? id = some parent)
    (lookup : parent.getVersion recorded = some version) :
    ∃ old oldVersion, keys.find? id = some old ∧ old.state = parent.state ∧
      old.getVersion recorded = some oldVersion ∧
      version = if id = self ∧ recorded = before.currentVersion then
        rewrappedVersion wrapped oldVersion else oldVersion := by
  rw [find?_afterRewrap found] at present
  by_cases isSelf : id = self
  · rw [if_pos isSelf] at present
    cases present
    rw [getVersion_rewrappedRecord] at lookup
    by_cases current : recorded = before.currentVersion
    · rw [if_pos current] at lookup
      obtain ⟨oldVersion, oldLookup, rfl⟩ := Option.map_eq_some_iff.mp lookup
      exact ⟨before, oldVersion, isSelf ▸ found, rfl, oldLookup, by simp [isSelf, current]⟩
    · rw [if_neg current] at lookup
      exact ⟨before, version, isSelf ▸ found, rfl, lookup, by simp [current]⟩
  · rw [if_neg isSelf] at present
    exact ⟨parent, version, present, rfl, lookup, by simp [isSelf]⟩

/-- What the rewrapped version now names: a version of the new parent. -/
structure NamesParent (keys : Keys) (wrapped : Wrapped) (parentId : KeyId) (number : Nat)
    (version : KeyVersion) : Prop where
  wrappedBy : wrapped.wrappingKeyId = some parentId.text
  wrappedAt : wrapped.wrappingKeyVersion = some number
  lookup : ∃ parent, keys.find? parentId = some parent ∧ parent.getVersion number = some version

/-- A chain after the rewrap avoids the rewrapped version, or passes through it and so
reaches the new parent again, with fewer levels left. -/
theorem recoverableWithout_or_again (found : keys.find? self = some before) {parentId : KeyId}
    {number : Nat} {parentVersion : KeyVersion}
    (names : NamesParent (afterRewrap keys before now wrapped) wrapped parentId number
      parentVersion) {levels : Nat} {version : KeyVersion}
    (recoverable : Recoverable (afterRewrap keys before now wrapped) true levels version)
    {id : KeyId} {recorded : Nat} {record : KeyMetadata}
    (present : (afterRewrap keys before now wrapped).find? id = some record)
    (lookup : record.getVersion recorded = some version) :
    (∀ old oldVersion, keys.find? id = some old → old.getVersion recorded = some oldVersion →
      RecoverableWithout keys self before.currentVersion levels id oldVersion) ∨
    ∃ fewer, fewer < levels ∧
      Recoverable (afterRewrap keys before now wrapped) true fewer parentVersion := by
  induction recoverable generalizing id recorded record with
  | @master levels version unwrapped =>
      obtain ⟨old, oldVersion, oldFound, -, oldLookup, same⟩ :=
        lookup_of_afterRewrap found present lookup
      by_cases isSelf : id = self ∧ recorded = before.currentVersion
      · rw [if_pos isSelf] at same
        rw [same, rewrappedVersion, names.wrappedBy] at unwrapped
        cases unwrapped
      · rw [if_neg isSelf] at same
        refine Or.inl ?_
        intro other otherVersion otherFound otherLookup
        rw [oldFound] at otherFound
        cases otherFound
        rw [oldLookup] at otherLookup
        cases otherLookup
        subst same
        refine .master ?_ unwrapped
        rwa [KeyMetadata.version_of_getVersion oldLookup]
  | @sealed levels version upId upNumber up upVersion wrappedBy wrappedAt upFound live readable
      upLookup recoverable ih =>
      obtain ⟨old, oldVersion, oldFound, -, oldLookup, same⟩ :=
        lookup_of_afterRewrap found present lookup
      by_cases isSelf : id = self ∧ recorded = before.currentVersion
      · rw [if_pos isSelf] at same
        subst same
        obtain ⟨namedBy, namedAt, parent, parentFound, parentLookup⟩ := names
        rw [rewrappedVersion, namedBy] at wrappedBy
        cases wrappedBy
        rw [rewrappedVersion, namedAt] at wrappedAt
        cases wrappedAt
        rw [show (afterRewrap keys before now wrapped).find? ⟨parentId.text⟩ = some parent from
          parentFound] at upFound
        cases upFound
        rw [parentLookup] at upLookup
        cases upLookup
        exact Or.inr ⟨levels, Nat.lt_succ_self _, recoverable⟩
      · rw [if_neg isSelf] at same
        obtain ⟨above, aboveVersion, aboveFound, aboveState, aboveLookup, -⟩ :=
          lookup_of_afterRewrap found upFound upLookup
        rcases ih upFound upLookup with chain | ⟨fewer, less, again⟩
        · refine Or.inl ?_
          intro other otherVersion otherFound otherLookup
          rw [oldFound] at otherFound
          cases otherFound
          rw [oldLookup] at otherLookup
          cases otherLookup
          subst same
          refine .sealed ?_ wrappedBy wrappedAt aboveFound (aboveState ▸ live) aboveLookup
            (chain _ _ aboveFound aboveLookup)
          rwa [KeyMetadata.version_of_getVersion oldLookup]
        · exact Or.inr ⟨fewer, Nat.lt_succ_of_lt less, again⟩

/-- If the new parent is recoverable after the rewrap, it was recoverable without the
rewrapped version: a chain through that version would never end. -/
theorem recoverableWithout_of_recoverable (found : keys.find? self = some before)
    {parentId : KeyId} {number levels : Nat} {parentVersion : KeyVersion}
    (names : NamesParent (afterRewrap keys before now wrapped) wrapped parentId number
      parentVersion)
    (recoverable : Recoverable (afterRewrap keys before now wrapped) true levels parentVersion)
    {old : KeyMetadata} {oldVersion : KeyVersion} (oldFound : keys.find? parentId = some old)
    (oldLookup : old.getVersion number = some oldVersion) :
    RecoverableWithout keys self before.currentVersion levels parentId oldVersion := by
  induction levels using Nat.strong_induction_on with
  | _ levels ih =>
      obtain ⟨parent, parentFound, parentLookup⟩ := names.lookup
      rcases recoverableWithout_or_again found names recoverable parentFound parentLookup with
        chain | ⟨fewer, less, again⟩
      · exact chain _ _ oldFound oldLookup
      · exact (ih fewer less again).mono (Nat.le_of_lt less)

end After

/-! ### The secret before and after -/

/-- The secret that the unwrap which ignores parent states reads from the current
version of a key. -/
def CurrentSecret (ks : Keystore) (reader : Env) (world : World) (id : KeyId) (secret : Bytes) :
    Prop :=
  ∃ record version, world.keys.find? id = some record ∧
    record.currentKeyVersion = some version ∧
    (ks.unwrapKeyVersionForRewrap id version).run (handle reader) world = (.ok secret, world)

theorem currentSecret_iff {reader : Env} {world : World} {id : KeyId} {secret : Bytes}
    {record : KeyMetadata} {version : KeyVersion} (answers : ∀ id, reader.getFault id = none)
    (found : world.keys.find? id = some record)
    (current : record.currentKeyVersion = some version) :
    CurrentSecret ks reader world id secret ↔
      Unwraps ks world.keys true (maxUnwrapDepth + 1) id version secret := by
  constructor
  · rintro ⟨record', version', found', current', ran⟩
    rw [found] at found'
    cases found'
    rw [current] at current'
    cases current'
    exact unwraps_of_run ran
  · intro unwraps
    exact ⟨record, version, found, current, run_of_unwraps answers unwraps⟩

section Rewraps

variable {id : KeyId} {newParentId : Option KeyId} {version : KeyVersion} {secret : Bytes}
  {before : KeyMetadata} {wrapped : Wrapped} {now : Nat}

/-- The keys stay sound over a rewrap. -/
theorem sound_afterRewrap {env : Env} (lawful : ks.crypto.Lawful) (sound : Sound ks keys)
    (emptied : Emptied keys) (found : keys.find? id = some before)
    (live : before.state ≠ .destroyed)
    (change : Change ks env keys (.rewrap id newParentId) (rewrappedRecord before now wrapped)) :
    Extends keys (afterRewrap keys before now wrapped) ∧
      Sound ks (afterRewrap keys before now wrapped) ∧
      Emptied (afterRewrap keys before now wrapped) := by
  have stored : keys.find? (rewrappedRecord before now wrapped).id = some before := by
    have own : before.id = id := Table.key_of_find? found
    rw [show (rewrappedRecord before now wrapped).id = id from own]
    exact found
  have kept : Extends keys (afterRewrap keys before now wrapped) :=
    Extends.insert stored (edits_rewrappedRecord live now wrapped).outlives
  refine ⟨kept, change.sound lawful sound emptied kept, ?_⟩
  intro other record present destroyed
  rw [afterRewrap, Table.find?_insert] at present
  split at present
  · cases present
    exact absurd destroyed live
  · exact emptied _ _ present destroyed

/-- After a rewrap the chain of the key's current version can be followed exactly when
the new parent was safe. -/
theorem recoverable_afterRewrap_iff (found : keys.find? id = some before)
    (wraps : Wraps ks keys id version.version secret newParentId wrapped) :
    Recoverable (afterRewrap keys before now wrapped) true (maxUnwrapDepth + 1)
        (rewrappedVersion wrapped version) ↔
      SafeParent keys id before.currentVersion newParentId := by
  cases wraps with
  | @master newParentId material unsealed wraps =>
      refine iff_of_true (.master rfl) ?_
      cases newParentId with
      | none => trivial
      | some parentId =>
          intro parent present sealing
          obtain ⟨record, present', plain⟩ := unsealed parentId rfl
          rw [present] at present'
          cases present'
          rw [plain] at sealing
          cases sealing
  | @sealed parentId parent parentVersion key material present sealing current stores seals =>
      have number := KeyMetadata.version_of_getVersion current
      have lookup : parent.getVersion parentVersion.version = some parentVersion := by
        rw [number]
        exact current
      constructor
      · intro recoverable
        cases recoverable with
        | master unwrapped => cases unwrapped
        | sealed wrappedBy wrappedAt upFound live readable upLookup recoverable =>
            cases wrappedBy
            cases wrappedAt
            obtain ⟨old, oldVersion, oldFound, sameState, oldLookup, -⟩ :=
              lookup_of_afterRewrap found upFound upLookup
            rw [show keys.find? ⟨parentId.text⟩ = some parent from present] at oldFound
            cases oldFound
            rw [lookup] at oldLookup
            cases oldLookup
            intro other otherFound _
            rw [present] at otherFound
            cases otherFound
            refine ⟨sameState ▸ live, ?_⟩
            intro otherVersion otherCurrent
            rw [current] at otherCurrent
            cases otherCurrent
            exact recoverableWithout_of_recoverable found
              ⟨rfl, rfl, _, upFound, upLookup⟩ recoverable present lookup
      · intro safe
        obtain ⟨live, chains⟩ := safe parent present sealing
        have chain := chains parentVersion current
        exact chain.link found rfl rfl present live lookup (chain.recoverable found)

end Rewraps

/-- After a rewrap the secret is read from the current version exactly when the new
parent was safe. -/
theorem currentSecret_afterRewrap_iff (lawful : ks.crypto.Lawful) (env : Env) {reader : Env}
    {world : World} {id : KeyId} {newParentId : Option KeyId} {before : KeyMetadata}
    {version : KeyVersion} {secret : Bytes} {wrapped : Wrapped} (sound : Sound ks world.keys)
    (emptied : Emptied world.keys) (answers : ∀ id, reader.getFault id = none)
    (found : world.keys.find? id = some before)
    (current : before.currentKeyVersion = some version)
    (unwraps : Unwraps ks world.keys true (maxUnwrapDepth + 1) id version secret)
    (wraps : Wraps ks world.keys id version.version secret newParentId wrapped) :
    CurrentSecret ks reader
        { world with keys := afterRewrap world.keys before world.now wrapped } id secret ↔
      SafeParent world.keys id before.currentVersion newParentId := by
  have live := unwraps.live emptied found current
  have change : Change ks env world.keys (.rewrap id newParentId)
      (rewrappedRecord before world.now wrapped) := .rewrapped found current unwraps wraps
  obtain ⟨kept, soundAfter, emptiedAfter⟩ :=
    sound_afterRewrap lawful sound emptied found live change
  have foundAfter : (afterRewrap world.keys before world.now wrapped).find? id =
      some (rewrappedRecord before world.now wrapped) := by
    rw [find?_afterRewrap found, if_pos rfl]
  have currentAfter : (rewrappedRecord before world.now wrapped).currentKeyVersion =
      some (rewrappedVersion wrapped version) := by
    have lookup := getVersion_rewrappedRecord before world.now before.currentVersion wrapped
    rw [if_pos rfl, show before.getVersion _ = some version from current] at lookup
    exact lookup
  have holds : Holds ks world.keys id (rewrappedVersion wrapped version) secret :=
    wraps.holds rfl rfl rfl rfl
  rw [currentSecret_iff answers foundAfter currentAfter,
    unwraps_iff_recoverable lawful soundAfter emptiedAfter (holds.extends kept),
    recoverable_afterRewrap_iff found wraps]

/-- What is asked of one `rewrap`: if it succeeds the current version unwraps to the
same secret as before, and if it does not the record is unchanged. -/
def RewrapKeepsSecret (ks : Keystore) (env reader : Env) (world : World) (id : KeyId)
    (newParentId : Option KeyId) : Prop :=
  match (Call.rewrap id newParentId).run ks env world with
  | (.ok _, after) => ∀ secret, CurrentSecret ks reader world id secret →
      CurrentSecret ks reader after id secret
  | (_, after) => after.keys.find? id = world.keys.find? id

/-- A `rewrap` call ends as its operation does. -/
theorem run_rewrap (env : Env) (world : World) (id : KeyId) (newParentId : Option KeyId) :
    (Call.rewrap id newParentId).run ks env world =
      andThen (handle env) (fun _ => (.ret .done : Prog CallError CallValue))
        ((ks.rewrap id newParentId).run (handle env) world) := by
  rw [Call.run, Call.prog, run_bind]
  rfl

/-- A rewrap keeps the secret exactly when it is refused or the new parent is safe. -/
theorem rewrapKeepsSecret_iff (lawful : ks.crypto.Lawful) {world : World}
    (reachable : Reachable ks anyStep world) {env reader : Env} (atomic : env.AtomicPut)
    (answers : ∀ id, reader.getFault id = none) (id : KeyId) (newParentId : Option KeyId) :
    RewrapKeepsSecret ks env reader world id newParentId ↔
      ((∃ value, ((Call.rewrap id newParentId).run ks env world).1 = .ok value) →
        ∀ before, world.keys.find? id = some before →
          SafeParent world.keys id before.currentVersion newParentId) := by
  obtain ⟨sound, emptied⟩ := reachable.sound lawful
  have unchanged : ((ks.rewrap id newParentId).run (handle env) world).1 ≠ .ok () →
      ((ks.rewrap id newParentId).run (handle env) world).2.keys = world.keys :=
    keys_of_rewrap_ne_ok atomic
  rw [RewrapKeepsSecret, run_rewrap]
  cases ran : (ks.rewrap id newParentId).run (handle env) world with
  | mk outcome after =>
      cases outcome with
      | ok value =>
          obtain ⟨version, secret, did⟩ := rewraps_of_run ran
          obtain ⟨found, current, unwraps, wraps⟩ := did
          rename_i before wrapped
          have beforeIff : ∀ secret, CurrentSecret ks reader world id secret ↔
              Unwraps ks world.keys true (maxUnwrapDepth + 1) id version secret :=
            fun _ => currentSecret_iff answers found current
          have afterIff := currentSecret_afterRewrap_iff lawful env sound emptied answers found current
            unwraps wraps
          simp only [andThen_ok, run_ret]
          constructor
          · rintro keeps - other otherFound
            rw [found] at otherFound
            cases otherFound
            exact afterIff.mp (keeps secret ((beforeIff secret).mpr unwraps))
          · intro safe other reads
            have live := unwraps.live emptied found current
            obtain ⟨held, holds, -⟩ :=
              sound _ _ found live version (KeyMetadata.mem_of_getVersion current)
            have same : other = secret := by
              rw [((beforeIff other).mp reads).eq_of_holds lawful sound emptied holds,
                unwraps.eq_of_holds lawful sound emptied holds]
            rw [same]
            exact afterIff.mpr (safe ⟨_, rfl⟩ before found)
      | err error =>
          rw [ran] at unchanged
          simp only [andThen_err]
          refine iff_of_true (congrArg (fun keys : Keys => keys.find? id) (unchanged (by simp))) ?_
          rintro ⟨value, impossible⟩
          cases impossible
      | aborted why =>
          rw [ran] at unchanged
          simp only [andThen_aborted]
          refine iff_of_true (congrArg (fun keys : Keys => keys.find? id) (unchanged (by simp))) ?_
          rintro ⟨value, impossible⟩
          cases impossible

/-- A domain key that is rewrapped under itself loses its secret. -/
theorem domain_rewrapped_under_itself_lost :
    ∃ world, Reachable plainKeystore anyStep world ∧
      Grove world.keys (line .active .active .active .active) ∧
      ((Call.rewrap (keyNumbered 1) (some (keyNumbered 1))).run plainKeystore (quietEnv 4)
        world).1 = .ok .done ∧
      ¬ RewrapKeepsSecret plainKeystore (quietEnv 4) (quietEnv 4) world (keyNumbered 1)
        (some (keyNumbered 1)) := by
  obtain ⟨world, reachable, grove, -⟩ := exists_line plainKeystore_growable anyStep
    (.memory ⟨1, []⟩) .active .active .active .active (by decide) (fun _ _ _ _ _ _ _ => trivial)
  obtain ⟨sound, emptied⟩ := reachable.sound transparent_lawful
  obtain ⟨record, version, found, planted⟩ := grove.planted 1 _ rfl
  obtain ⟨secret, holds, fits⟩ := planted.secret sound found (by decide) (by decide)
  have chain : Recoverable world.keys true (maxUnwrapDepth + 1) version :=
    .master planted.wrappedBy
  have unwraps := chain.unwraps transparent_lawful sound holds
  have sealable : Sealable plainKeystore world.keys (keyNumbered 1) version.version
      (some (keyNumbered 1)) := by
    rw [planted.number]
    exact grove.sealable transparent_lawful sound (line_grows (by decide)) rfl (by decide) _
      (by decide)
  obtain ⟨wrapped, ran, wraps⟩ := rewrap_run (plainKeystore_growable.canWrap 4) found
    planted.current unwraps sealable fits
  refine ⟨world, reachable, grove, ?_, ?_⟩
  · rw [run_rewrap, ran]
    rfl
  · rw [RewrapKeepsSecret, run_rewrap, ran]
    intro keeps
    have answers : ∀ id, (quietEnv 4).getFault id = none := fun _ => rfl
    have before : CurrentSecret plainKeystore (quietEnv 4) world (keyNumbered 1) secret :=
      (currentSecret_iff answers found planted.current).mpr unwraps
    have safe := (currentSecret_afterRewrap_iff transparent_lawful (quietEnv 4) sound emptied
      answers found planted.current unwraps wraps).mp (keeps secret before)
    have sealing : wrapsChildren record.keyType = true := by rw [planted.keyType]; rfl
    have without := (safe record found sealing).2 version planted.current
    exact without.notSelf ⟨rfl, planted.number.trans planted.currentVersion.symm⟩

/-- A data key that is rewrapped under another key-encrypting key keeps its secret. -/
theorem dek_rewrapped_under_other_kek_kept :
    ∃ world secret, Reachable plainKeystore anyStep world ∧ Grove world.keys twoParents ∧
      CurrentSecret plainKeystore (quietEnv 5) world (keyNumbered 3) secret ∧
      ((Call.rewrap (keyNumbered 3) (some (keyNumbered 4))).run plainKeystore (quietEnv 5)
        world).1 = .ok .done ∧
      RewrapKeepsSecret plainKeystore (quietEnv 5) (quietEnv 5) world (keyNumbered 3)
        (some (keyNumbered 4)) := by
  obtain ⟨world, reachable, grove⟩ := exists_twoParents
  obtain ⟨sound, -⟩ := reachable.sound transparent_lawful
  obtain ⟨record, version, found, planted⟩ := grove.planted 3 _ rfl
  obtain ⟨domain, domainVersion, domainFound, domainPlanted⟩ := grove.planted 1 _ rfl
  obtain ⟨parent, parentVersion, parentFound, parentPlanted⟩ := grove.planted 4 _ rfl
  obtain ⟨secret, holds, fits⟩ := planted.secret sound found (by decide) (by decide)
  have chain : Recoverable world.keys true (maxUnwrapDepth + 1) version :=
    grove.recoverable_under_kek rfl rfl (fun _ _ => rfl) planted.wrappedBy planted.wrappedAt
  have unwraps := chain.unwraps transparent_lawful sound holds
  have sealable : Sealable plainKeystore world.keys (keyNumbered 3) version.version
      (some (keyNumbered 4)) := by
    rw [planted.number]
    exact grove.sealable transparent_lawful sound twoParents_grows rfl (by decide) _ (by decide)
  obtain ⟨wrapped, ran, -⟩ := rewrap_run (plainKeystore_growable.canWrap 5) found planted.current
    unwraps sealable fits
  have answers : ∀ id, (quietEnv 5).getFault id = none := fun _ => rfl
  have notSelf : ∀ n, n < 5 → n ≠ 3 → keyNumbered n ≠ keyNumbered 3 := fun n small different =>
    keyNumbered_ne different (by omega) (by decide)
  -- the new parent is below the domain only
  have safe : SafeParent world.keys (keyNumbered 3) record.currentVersion
      (some (keyNumbered 4)) := by
    intro other present sealing
    obtain rfl := Option.some.inj (parentFound.symm.trans present)
    refine ⟨by simp [parentPlanted.state], fun above current => ?_⟩
    obtain rfl := Option.some.inj (parentPlanted.current.symm.trans current)
    exact .sealed (fun same => notSelf 4 (by decide) (by decide) same.1) parentPlanted.wrappedBy
      parentPlanted.wrappedAt domainFound (by simp [domainPlanted.state]) domainPlanted.getVersion
      (.master (fun same => notSelf 1 (by decide) (by decide) same.1) domainPlanted.wrappedBy)
  refine ⟨world, secret, reachable, grove,
    (currentSecret_iff answers found planted.current).mpr unwraps, ?_, ?_⟩
  · rw [run_rewrap, ran]
    rfl
  · refine (rewrapKeepsSecret_iff transparent_lawful reachable (fun _ => .inl rfl) answers
      (keyNumbered 3) (some (keyNumbered 4))).mpr fun _ before present => ?_
    obtain rfl := Option.some.inj (found.symm.trans present)
    exact safe

end Keystore

end Citadel
