import Citadel.Keystore.DecryptEffect

/-!
# The place of a key

Without the flat-hierarchy override every key is placed under a parent whose role can
wrap its own, only a root stands alone, and no operation moves a key. The domain
above a key is therefore found within three records and is the same for the rest of
the key's life, and with it everything that encryption and decryption bind to the
domain.
-/

namespace Citadel

open Envelope Program

namespace Keystore

variable {ks : Keystore} {keys later : Keys} {world : World}

/-- A step without the flat-hierarchy override. -/
def Strict (step : Step) (_ : World) : Prop := step.env.process.flatOverride = false

/-- Every key has the place that the hierarchy asks for. -/
def AllPlaced (keys : Keys) : Prop :=
  ∀ id record, keys.find? id = some record → Placed keys false record.keyType record.parentId

theorem Placed.extends {flat : Bool} {keyType : KeyType} {parentId : Option KeyId}
    (kept : Extends keys later) (placed : Placed keys flat keyType parentId) :
    Placed later flat keyType parentId := by
  cases placed with
  | root admitted => exact .root admitted
  | child found admitted =>
      obtain ⟨grown, present, outlives⟩ := kept _ _ found
      refine .child present ?_
      rw [outlives.keyType]
      exact admitted

theorem AllPlaced.insert {record : KeyMetadata} (placed : AllPlaced keys)
    (kept : Extends keys (keys.insert record))
    (written : Placed keys false record.keyType record.parentId) :
    AllPlaced (keys.insert record) := by
  intro id stored found
  rw [Table.find?_insert] at found
  split at found
  · cases found
    exact written.extends kept
  · exact (placed id stored found).extends kept

end Keystore

open Keystore

variable {ks : Keystore} {keys : Keys} {world : World}

/-- A record that a strict step writes is placed: a new one by the check of `generate`,
an edited one because it stays where it was. -/
theorem Call.MayWrite.placed {step : Step} {record : KeyMetadata} (strict : Strict step world)
    (placed : AllPlaced keys)
    (mayWrite : step.call.MayWrite ks step.env world.keys keys record) :
    Placed keys false record.keyType record.parentId := by
  have unmoved : ∀ {id before}, keys.find? id = some before →
      record.keyType = before.keyType → record.parentId = before.parentId →
      Placed keys false record.keyType record.parentId := by
    intro id before found sameType sameParent
    rw [sameType, sameParent]
    exact placed id before found
  have flat : step.env.process.flatOverride = false := strict
  obtain ⟨change, -⟩ := mayWrite
  generalize step.call = call at change
  cases change with
  | generated kem placed wraps => exact flat ▸ placed
  | signingGenerated placed wraps => exact flat ▸ placed
  | activated found edge => exact unmoved found rfl rfl
  | rotated found active wraps => exact unmoved found rfl rfl
  | rewrapped found lookup unwraps wraps => exact unmoved found rfl rfl
  | revoked found active => exact unmoved found rfl rfl
  | cascadeRevoked found active => exact unmoved found rfl rfl
  | suspended found edge => exact unmoved found rfl rfl
  | expired found usable => exact unmoved found rfl rfl
  | dueExpired found usable => exact unmoved found rfl rfl
  | destroyed found edge => exact unmoved found rfl rfl
  | used found active data => exact unmoved found rfl rfl

/-- In every state that strict steps reach all keys are placed. -/
theorem Reachable.placed {allowed : Step → World → Prop}
    (strict : ∀ step world, allowed step world → Strict step world)
    (reachable : Reachable ks allowed world) : AllPlaced world.keys ∧ Emptied world.keys := by
  obtain ⟨now, replay, reaches⟩ := reachable
  refine reaches.keys_invariant (fun keys => AllPlaced keys ∧ Emptied keys) ?_ ⟨?_, .empty⟩
  · rintro step world keys record allows fresh ⟨placed, emptied⟩ mayWrite
    exact ⟨placed.insert (mayWrite.extends fresh emptied)
      (mayWrite.placed (strict step world allows) placed), mayWrite.emptied fresh emptied⟩
  · intro id record found
    cases found

/-- No run loses a key. -/
theorem Reaches.extends {allowed : Step → World → Prop} {later : World}
    (emptied : Emptied world.keys) (reaches : Reaches ks allowed world later) :
    Extends world.keys later.keys := by
  refine (reaches.keys_invariant (fun keys => Emptied keys ∧ Extends world.keys keys) ?_
    ⟨emptied, .refl _⟩).2
  rintro step middle keys record _ fresh ⟨emptied, kept⟩ mayWrite
  exact ⟨mayWrite.emptied fresh emptied, kept.trans (mayWrite.extends fresh emptied)⟩

namespace Keystore

/-- A key that is neither a root nor a domain has a parent whose role can wrap it. -/
theorem AllPlaced.parent (placed : AllPlaced keys) {id : KeyId} {record : KeyMetadata}
    (found : keys.find? id = some record) (notRoot : record.keyType ≠ .root) :
    ∃ parentId parent, record.parentId = some parentId ∧ keys.find? parentId = some parent ∧
      parent.keyType.role.canWrap record.keyType.role = true := by
  have place := placed id record found
  generalize record.parentId = named at place
  cases place with
  | root admitted =>
      rcases admitted with root | flat
      · exact absurd root notRoot
      · cases flat
  | child present admitted =>
      rcases admitted with wraps | flat
      · exact ⟨_, _, rfl, present, wraps⟩
      · cases flat

/-- How many records lie between a key and its domain. -/
def belowDomain : KeyType → Nat
  | .root => 0
  | .domain => 0
  | .keyEncrypting => 1
  | _ => 2

theorem belowDomain_of_canWrap {parent child : KeyType} (below : child ≠ .domain)
    (wraps : parent.role.canWrap child.role = true) :
    parent ≠ .root ∧ belowDomain child = belowDomain parent + 1 := by
  cases parent <;> cases child <;> first | contradiction | decide

/-- Every key but a root belongs to a domain. -/
theorem AllPlaced.resolves (placed : AllPlaced keys) {id : KeyId} {record : KeyMetadata}
    (found : keys.find? id = some record) (notRoot : record.keyType ≠ .root) (spare : Nat) :
    ∃ domainId domain, ResolvesTo keys (belowDomain record.keyType + 1 + spare) id domainId ∧
      keys.find? domainId = some domain ∧ domain.keyType = .domain := by
  generalize height : belowDomain record.keyType = n
  induction n generalizing id record with
  | zero =>
      have isDomain : record.keyType = .domain := by
        cases type : record.keyType <;> simp_all [belowDomain]
      rw [Nat.zero_add, Nat.add_comm]
      exact ⟨id, record, .domain found isDomain, found, isDomain⟩
  | succ n ih =>
      have below : record.keyType ≠ .domain := by
        intro isDomain
        rw [isDomain] at height
        cases height
      obtain ⟨parentId, parent, child, present, wraps⟩ := placed.parent found notRoot
      obtain ⟨parentNotRoot, higher⟩ := belowDomain_of_canWrap below wraps
      obtain ⟨domainId, domain, resolves, stored, isDomain⟩ :=
        ih present parentNotRoot (by omega)
      refine ⟨domainId, domain, ?_, stored, isDomain⟩
      rw [show n + 1 + 1 + spare = (n + 1 + spare) + 1 by omega]
      exact .parent found below notRoot child resolves

theorem AllPlaced.resolves_ten (placed : AllPlaced keys) {id : KeyId} {record : KeyMetadata}
    (found : keys.find? id = some record) (notRoot : record.keyType ≠ .root) :
    ∃ domainId domain, ResolvesTo keys 10 id domainId ∧ keys.find? domainId = some domain ∧
      domain.keyType = .domain := by
  have short : belowDomain record.keyType ≤ 9 := by
    cases record.keyType <;> decide
  obtain ⟨domainId, domain, resolves, stored, isDomain⟩ :=
    placed.resolves found notRoot (9 - belowDomain record.keyType)
  rw [show belowDomain record.keyType + 1 + (9 - belowDomain record.keyType) = 10 by omega]
    at resolves
  exact ⟨domainId, domain, resolves, stored, isDomain⟩

/-- The key belongs to a domain: whoever resolves it finds that domain, and encryption,
decryption and the replay keys of its blobs are bound to it. -/
structure BoundTo (ks : Keystore) (world : World) (id domainId : KeyId) : Prop where
  domain : ∃ record, world.keys.find? domainId = some record ∧ record.keyType = .domain
  resolved : ∀ env : Env, (∀ other, env.getFault other = none) →
    (resolveDomainForKey id).run (handle env) world = (.ok domainId, world)
  unique : ∀ env other after,
    (resolveDomainForKey id).run (handle env) world = (.ok other, after) → other = domainId
  sealed : ∀ env plaintext aad context blob after,
    (ks.encrypt id plaintext aad context).run (handle env) world = (.ok blob, after) →
    ∃ coins key ciphertext, blob.ciphertextHex = hexEncode ciphertext ∧
      Envelope.seal ks.crypto coins key plaintext (domainBoundAad domainId aad) context =
        .ok ciphertext
  opened : ∀ env (blob : EncryptedBlob) aad context plaintext after, blob.keyId = id.text →
    (ks.decrypt blob aad context).run (handle env) world = (.ok plaintext, after) →
    ∃ key ciphertext, hexDecode (utf8 blob.ciphertextHex) = .ok ciphertext ∧
      Envelope.open ks.crypto key ciphertext (domainBoundAad domainId aad) context = .ok plaintext
  claimed : ∀ (blob : EncryptedBlob) key, blob.keyId = id.text →
    ReplayKey ks world.keys blob key → ∃ ciphertext nonce,
      hexDecode (utf8 blob.ciphertextHex) = .ok ciphertext ∧ envelopeNonce ciphertext = .ok nonce ∧
      key = deriveReplayKey ks.crypto domainId.text blob.keyId blob.keyVersion nonce
        (aeadTag ciphertext)

theorem boundTo_of_resolvesTo {id domainId : KeyId} {record : KeyMetadata}
    (resolves : ResolvesTo world.keys 10 id domainId)
    (found : world.keys.find? domainId = some record) (isDomain : record.keyType = .domain) :
    BoundTo ks world id domainId where
  domain := ⟨record, found, isDomain⟩
  resolved env answers := run_of_resolvesTo answers resolves 0
  unique env other after ran := (resolvesTo_of_run ran).unique resolves
  sealed := by
    intro env plaintext aad context blob after ran
    obtain ⟨-, -, -, -, -, -, -, also, sealed⟩ := encrypts_of_run ran
    rw [also.unique resolves] at sealed
    exact ⟨_, _, _, rfl, sealed⟩
  opened := by
    intro env blob aad context plaintext after ofKey ran
    obtain ⟨-, -, -, -, decodes, -, also, -, -, -, opens⟩ := decrypts_of_run ran
    rw [ofKey] at also
    rw [also.unique resolves] at opens
    exact ⟨_, _, decodes, opens⟩
  claimed := by
    rintro blob _ ofKey ⟨other, ciphertext, nonce, also, decodes, carries, rfl⟩
    rw [ofKey] at also
    rw [also.unique resolves]
    exact ⟨ciphertext, nonce, decodes, carries, rfl⟩

/-- A key that is not a root belongs to one domain for the rest of its life. -/
theorem domain_stable_of_strict_run (reachable : Reachable ks Strict world) {id : KeyId}
    {record : KeyMetadata} (found : world.keys.find? id = some record)
    (notRoot : record.keyType ≠ .root) :
    ∃ domainId, ∀ later, Reaches ks Strict world later → BoundTo ks later id domainId := by
  obtain ⟨placed, emptied⟩ := reachable.placed fun _ _ strict => strict
  obtain ⟨domainId, domain, resolves, stored, isDomain⟩ := placed.resolves_ten found notRoot
  refine ⟨domainId, fun later reaches => ?_⟩
  have kept := reaches.extends emptied
  obtain ⟨grown, present, outlives⟩ := kept _ _ stored
  exact boundTo_of_resolvesTo (resolves.extends kept) present (outlives.keyType.trans isDomain)

/-- The data key of a line belongs to the domain of the line, also after the keys above it
have been rotated, revoked or destroyed. -/
theorem data_key_keeps_domain :
    ∃ world record domainId, Reachable plainKeystore Strict world ∧
      world.keys.find? (keyNumbered 3) = some record ∧ record.keyType = .dataEncrypting ∧
      ∀ later, Reaches plainKeystore Strict world later →
        BoundTo plainKeystore later (keyNumbered 3) domainId := by
  obtain ⟨world, reachable, grove, -⟩ := exists_line plainKeystore_growable Strict
    (.memory ⟨1, []⟩) .active .active .active .active (by decide) (fun _ _ _ _ _ _ _ => rfl)
  obtain ⟨record, version, found, planted⟩ := grove.planted 3 _ rfl
  obtain ⟨domainId, bound⟩ := domain_stable_of_strict_run reachable found
    (by rw [planted.keyType]; decide)
  exact ⟨world, record, domainId, reachable, found, planted.keyType, bound⟩

end Keystore

end Citadel
