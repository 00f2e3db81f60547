import Citadel.Keystore.Material

/-!
# The text of a key

A record is stored as one text. Its secret material has a format of its own, in which the
beginning of the text tells the kinds apart; the other fields are derived. Every record that
the keystore stores is read back from its text, and its identifier is a plain file name.
-/

namespace Citadel

open Envelope Program Keystore

namespace SecretKeyMaterial

/-- `Serialize for SecretKeyMaterial`. -/
def serialize : SecretKeyMaterial → String
  | .encrypted text => text
  | .citadelWrapped text => text
  | .plaintext text => text
  | .destroyed => "DESTROYED"

/-- `Deserialize for SecretKeyMaterial`. Whatever has no other form is legacy plaintext. -/
def deserialize (raw : String) : SecretKeyMaterial :=
  if raw = "DESTROYED" then .destroyed
  else if (utf8 "enc:").isPrefixOf (utf8 raw) then .encrypted raw
  else if (utf8 "ckw:").isPrefixOf (utf8 raw) then .citadelWrapped raw
  else .plaintext raw

/-- The text has the form of its kind. -/
def Tagged : SecretKeyMaterial → Prop
  | .encrypted text => (utf8 "enc:").isPrefixOf (utf8 text) = true
  | .citadelWrapped text => (utf8 "ckw:").isPrefixOf (utf8 text) = true
  | .plaintext text => text ≠ "DESTROYED" ∧ (utf8 "enc:").isPrefixOf (utf8 text) = false ∧
      (utf8 "ckw:").isPrefixOf (utf8 text) = false
  | .destroyed => True

/-- No text has two forms. -/
theorem not_isPrefixOf_both {text : String} (encrypted : (utf8 "enc:").isPrefixOf (utf8 text) = true) :
    (utf8 "ckw:").isPrefixOf (utf8 text) = false := by
  rw [Bool.eq_false_iff]
  intro sealed
  obtain ⟨rest, same⟩ := List.isPrefixOf_iff_prefix.mp encrypted
  obtain ⟨other, equal⟩ := List.isPrefixOf_iff_prefix.mp sealed
  rw [← same] at equal
  exact absurd (List.append_inj_left equal (by decide)) (by decide)

/-- The material is read back exactly when its text has the form of its kind. -/
theorem deserialize_serialize_iff {material : SecretKeyMaterial} :
    deserialize material.serialize = material ↔ material.Tagged := by
  have marker : (utf8 "enc:").isPrefixOf (utf8 "DESTROYED") = false ∧
      (utf8 "ckw:").isPrefixOf (utf8 "DESTROYED") = false := by decide
  cases material with
  | destroyed => simp [serialize, deserialize, Tagged]
  | encrypted text =>
      by_cases destroyed : text = "DESTROYED"
      · simp [serialize, deserialize, Tagged, destroyed, marker.1]
      · by_cases tagged : (utf8 "enc:").isPrefixOf (utf8 text) = true
        · simp [serialize, deserialize, Tagged, destroyed, tagged]
        · by_cases sealed : (utf8 "ckw:").isPrefixOf (utf8 text) = true
          · simp [serialize, deserialize, Tagged, destroyed, tagged, sealed]
          · simp [serialize, deserialize, Tagged, destroyed, tagged, sealed]
  | citadelWrapped text =>
      by_cases destroyed : text = "DESTROYED"
      · simp [serialize, deserialize, Tagged, destroyed, marker.2]
      · by_cases encrypted : (utf8 "enc:").isPrefixOf (utf8 text) = true
        · simp [serialize, deserialize, Tagged, destroyed, encrypted, not_isPrefixOf_both encrypted]
        · by_cases tagged : (utf8 "ckw:").isPrefixOf (utf8 text) = true
          · simp [serialize, deserialize, Tagged, destroyed, encrypted, tagged]
          · simp [serialize, deserialize, Tagged, destroyed, encrypted, tagged]
  | plaintext text =>
      by_cases destroyed : text = "DESTROYED"
      · simp [serialize, deserialize, Tagged, destroyed]
      · by_cases encrypted : (utf8 "enc:").isPrefixOf (utf8 text) = true
        · simp [serialize, deserialize, Tagged, destroyed, encrypted]
        · by_cases tagged : (utf8 "ckw:").isPrefixOf (utf8 text) = true
          · simp [serialize, deserialize, Tagged, destroyed, encrypted, tagged]
          · simp [serialize, deserialize, Tagged, destroyed, encrypted, tagged]

end SecretKeyMaterial

/-- The record with its secret material replaced. -/
def KeyMetadata.mapMaterial (record : KeyMetadata) (change : SecretKeyMaterial → SecretKeyMaterial) :
    KeyMetadata :=
  { record with
    versions := record.versions.map fun version =>
      { version with secretKeyMaterial := change version.secretKeyMaterial } }

/-- The derived serialisation of a record, given that of its secret material
(`serde_json`). -/
structure KeyFormat where
  toStringPretty : (SecretKeyMaterial → String) → KeyMetadata → Except String String
  fromStr : (String → SecretKeyMaterial) → String → Except String KeyMetadata

/-- The derived fields are read back as they were written. -/
structure KeyFormat.Lawful (format : KeyFormat) : Prop where
  roundTrip : ∀ serialize deserialize record, ∃ text,
    format.toStringPretty serialize record = .ok text ∧
      format.fromStr deserialize text =
        .ok (record.mapMaterial fun material => deserialize (serialize material))

/-- A record that has a place of its own in a directory and is read back from there. -/
structure KeyMetadata.Storable (record : KeyMetadata) : Prop where
  generated : ∃ random, record.id = .generate random
  tagged : ∀ version ∈ record.versions, version.secretKeyMaterial.Tagged

theorem KeyMetadata.Storable.mapMaterial {record : KeyMetadata} (storable : record.Storable) :
    (record.mapMaterial fun material => .deserialize material.serialize) = record := by
  have same : (record.versions.map fun version : KeyVersion =>
      { version with
        secretKeyMaterial := .deserialize version.secretKeyMaterial.serialize }) =
      record.versions := by
    conv_rhs => rw [← List.map_id record.versions]
    apply List.map_congr_left
    intro version member
    rw [SecretKeyMaterial.deserialize_serialize_iff.mpr (storable.tagged version member)]
    rfl
  unfold KeyMetadata.mapMaterial
  rw [same]

/-- A storable record is written and read back. -/
theorem KeyFormat.Lawful.reads {format : KeyFormat} (lawful : format.Lawful)
    {record : KeyMetadata} (storable : record.Storable) :
    ∃ text, format.toStringPretty SecretKeyMaterial.serialize record = .ok text ∧
      format.fromStr .deserialize text = .ok record := by
  obtain ⟨text, written, read⟩ :=
    lawful.roundTrip SecretKeyMaterial.serialize .deserialize record
  rw [storable.mapMaterial] at read
  exact ⟨text, written, read⟩

/-- An identifier is a plain file name. -/
theorem KeyId.slash_not_mem_generate (random : SizedBytes 16) :
    '/' ∉ (KeyId.generate random).text.toList := by
  have digits : ∀ value < 16, Char.ofNat (hexDigit value).toNat ≠ '/' := by decide
  simp only [KeyId.generate, hexEncode, String.toList_ofList]
  intro slash
  obtain ⟨byte, member, same⟩ := List.mem_map.mp slash
  obtain ⟨value, small, rfl⟩ := mem_hexBytes member
  exact digits value small same

theorem KeyId.generate_ne_empty (random : SizedBytes 16) : (KeyId.generate random).text ≠ "" := by
  intro empty
  have length : (utf8 (KeyId.generate random).text).length = 32 := by simp [KeyId.generate]
  rw [empty] at length
  exact absurd length (by decide)

/-- Hexadecimal text has the form of plaintext. -/
theorem tagged_plaintext (secret : Bytes) :
    (SecretKeyMaterial.plaintext (hexEncode secret)).Tagged := by
  have digits : ∀ value < 16, hexDigit value ≠ 110 ∧ hexDigit value ≠ 107 ∧
      hexDigit value ≠ 68 := by decide
  have unlike : ∀ front : Bytes, (110 ∈ front ∨ 107 ∈ front) →
      front.isPrefixOf (hexBytes secret) = false := by
    intro front letter
    rw [Bool.eq_false_iff]
    intro begins
    obtain ⟨rest, same⟩ := List.isPrefixOf_iff_prefix.mp begins
    rcases letter with letter | letter
    · obtain ⟨value, small, equal⟩ := mem_hexBytes (same ▸ List.mem_append_left rest letter)
      exact (digits value small).1 equal.symm
    · obtain ⟨value, small, equal⟩ := mem_hexBytes (same ▸ List.mem_append_left rest letter)
      exact (digits value small).2.1 equal.symm
  refine ⟨?_, ?_, ?_⟩
  · intro marker
    have spelled : hexBytes secret = utf8 "DESTROYED" := by rw [← utf8_hexEncode, marker]
    have letter : (68 : UInt8) ∈ utf8 "DESTROYED" := by decide
    obtain ⟨value, small, equal⟩ := mem_hexBytes (spelled ▸ letter)
    exact (digits value small).2.2 equal.symm
  · rw [utf8_hexEncode]
    exact unlike _ (Or.inl (by decide))
  · rw [utf8_hexEncode]
    exact unlike _ (Or.inr (by decide))

variable {ks : Keystore} {keys : Keys}

/-- Wrapped material has the form of its kind. -/
theorem Keystore.Wraps.tagged {id : KeyId} {version : Nat} {secret : Bytes}
    {parentId : Option KeyId} {wrapped : Wrapped}
    (wraps : Wraps ks keys id version secret parentId wrapped) : wrapped.material.Tagged := by
  cases wraps with
  | master unsealed wraps =>
      cases wraps with
      | plaintext unset => exact tagged_plaintext secret
      | encrypted set encrypts =>
          rw [String.append_assoc]
          exact isPrefixOf_utf8_append _ _
  | sealed found sealing current stores seals =>
      obtain ⟨coins, envelope, -, rfl⟩ := seals
      exact isPrefixOf_utf8_append _ _

/-- Every record of the table is storable. -/
def AllStorable (keys : Keys) : Prop :=
  ∀ id record, keys.find? id = some record → record.Storable

/-- Every record that a call writes is storable. -/
theorem Change.storable {env : Env} {call : Call} {record : KeyMetadata}
    (change : Change ks env keys call record) (all : AllStorable keys) : record.Storable := by
  cases change with
  | generated kem placed wraps =>
      refine ⟨⟨_, rfl⟩, fun version member => ?_⟩
      rw [List.mem_singleton.mp member]
      exact wraps.tagged
  | signingGenerated placed wraps =>
      refine ⟨⟨_, rfl⟩, fun version member => ?_⟩
      rw [List.mem_singleton.mp member]
      exact wraps.tagged
  | activated found edge => exact ⟨(all _ _ found).generated, (all _ _ found).tagged⟩
  | rotated found active wraps =>
      refine ⟨(all _ _ found).generated, fun version member => ?_⟩
      rcases List.mem_append.mp member with old | added
      · exact (all _ _ found).tagged version old
      · rw [List.mem_singleton.mp added]
        exact wraps.tagged
  | rewrapped found current unwraps wraps =>
      refine ⟨(all _ _ found).generated, fun version member => ?_⟩
      rcases mem_updateVersion member with old | ⟨old, -, rfl⟩
      · exact (all _ _ found).tagged version old
      · exact wraps.tagged
  | revoked found active => exact ⟨(all _ _ found).generated, (all _ _ found).tagged⟩
  | cascadeRevoked found active => exact ⟨(all _ _ found).generated, (all _ _ found).tagged⟩
  | suspended found edge => exact ⟨(all _ _ found).generated, (all _ _ found).tagged⟩
  | expired found usable => exact ⟨(all _ _ found).generated, (all _ _ found).tagged⟩
  | dueExpired found usable => exact ⟨(all _ _ found).generated, (all _ _ found).tagged⟩
  | destroyed found edge =>
      refine ⟨(all _ _ found).generated, fun version member => ?_⟩
      obtain ⟨old, -, rfl⟩ := List.mem_map.mp member
      trivial
  | used found active data => exact ⟨(all _ _ found).generated, (all _ _ found).tagged⟩

/-- A write keeps the records storable. -/
theorem Call.MayWrite.allStorable {env : Env} {start : Keys} {call : Call} {record : KeyMetadata}
    (mayWrite : call.MayWrite ks env start keys record) (all : AllStorable keys) :
    AllStorable (keys.insert record) := by
  intro id stored found
  rw [Table.find?_insert] at found
  split at found
  · cases found
    exact mayWrite.change.storable all
  · exact all id stored found

theorem Reachable.allStorable {allowed : Step → World → Prop} {world : World}
    (reachable : Reachable ks allowed world) : AllStorable world.keys := by
  obtain ⟨now, replay, reaches⟩ := reachable
  apply reaches.keys_invariant AllStorable
  · intro step world keys record _ _ all mayWrite
    exact mayWrite.allStorable all
  · intro id record found
    cases found

/-- A record that some run of the keystore hands to its storage. -/
def Produced (ks : Keystore) (record : KeyMetadata) : Prop :=
  ∃ (world : World) (step : Step) (before after : World), Reachable ks anyStep world ∧
    step.Fresh world ∧ (before, after) ∈ step.transitions ks world ∧
    after.keys = before.keys.insert record

/-- A record that is stored after a program was stored before it or is written by it. -/
theorem find?_of_run {ε α : Type} {env : Env} {program : Prog ε α} {world : World} {id : KeyId}
    {record : KeyMetadata}
    (found : (program.run (handle env) world).2.keys.find? id = some record) :
    world.keys.find? id = some record ∨ ∃ before after,
      (before, after) ∈ program.transitions (handle env) world ∧
        after.keys = before.keys.insert record := by
  induction program generalizing world with
  | ret value => exact Or.inl found
  | fail error => exact Or.inl found
  | abort why => exact Or.inl found
  | perform op next ih =>
      rcases ih _ found with stored | ⟨before, after, member, written⟩
      · have permitted : writes (fun _ _ => True) world op := by
          cases op with
          | put record => trivial
          | _ => trivial
        rcases keys_handle permitted with unchanged | ⟨other, -, written⟩
        · rw [unchanged] at stored
          exact Or.inl stored
        · rw [written, Table.find?_insert] at stored
          split at stored
          · cases stored
            exact Or.inr ⟨world, _, List.mem_cons_self, written⟩
          · exact Or.inl stored
      · exact Or.inr ⟨before, after, List.mem_cons_of_mem _ member, written⟩

/-- Every stored record was handed to the storage. -/
theorem Reachable.produced {world : World} (reachable : Reachable ks anyStep world) {id : KeyId}
    {record : KeyMetadata} (found : world.keys.find? id = some record) : Produced ks record := by
  obtain ⟨now, replay, reaches⟩ := reachable
  induction reaches with
  | refl => cases found
  | @step world step prior fresh allows ih =>
      rcases find?_of_run found with stored | ⟨before, after, member, written⟩
      · exact ih stored
      · exact ⟨world, step, before, after, ⟨now, replay, prior⟩, fresh, member, written⟩

/-- Whatever the keystore stores is storable. -/
theorem Produced.storable {record : KeyMetadata} (produced : Produced ks record) :
    record.Storable := by
  obtain ⟨world, step, before, after, reachable, -, member, written⟩ := produced
  have stored : after.keys.find? record.id = some record := by
    rw [written]
    exact Table.find?_insert_self _ _
  have all : AllStorable after.keys := by
    apply (Step.keys_during AllStorable ?_ reachable.allStorable member).2.1
    intro keys written all mayWrite
    exact mayWrite.allStorable all
  exact all _ _ stored

end Citadel
