import Citadel.Api.Assertions
import Citadel.Data.Checked

/-!
# How long an assertion lives

Assertions are built in two places: by `build_unsigned` for the server, and by the issuer that
signs offline. Both cast the lifetime to a signed number and add it to the time. An assertion is
accepted until its expiry, which is the sum only as long as the sum fits.
-/

namespace Citadel.Api

open Envelope Program Keystore

/-- A number is kept when it fits. -/
theorem wrapI64_eq_self_iff {value : Int} : wrapI64 value = value ↔ FitsI64 value := by
  unfold wrapI64 FitsI64
  rw [Int.bmod_eq_iff (by decide)]
  constructor
  · rintro ⟨low, high, -⟩
    omega
  · rintro ⟨low, high⟩
    refine ⟨by omega, by omega, ?_⟩
    rw [Int.sub_self]
    exact Int.dvd_zero _

/-- Casting the lifetime first makes no difference to the sum. -/
theorem wrapI64_add_wrapI64 (left right : Int) :
    wrapI64 (left + wrapI64 right) = wrapI64 (left + right) := Int.add_bmod_bmod

/-- The expiry is the sum of issue time and lifetime when it fits. -/
theorem expiry_eq_iff (issued ttl : Nat) :
    wrapI64 (issued + wrapI64 ttl) = (issued : Int) + ttl ↔ issued + ttl < 2 ^ 63 := by
  rw [wrapI64_add_wrapI64, wrapI64_eq_self_iff]
  unfold FitsI64
  omega

/-- `CitadelAssertionIssuer`. -/
structure CitadelAssertionIssuer where
  signingKeyId : String
  signingKeyVersion : Nat
  seedBytes : Bytes

namespace CitadelAssertionIssuer

variable (ks : Keystore) (libraries : AssertionLibraries) (now : Nat) (random : SizedBytes 16)
  (issuer : CitadelAssertionIssuer)

/-- `issue_inner`. -/
def issueInner (publicClaims : libraries.Value) (ttlSecs : Nat) (sealedClaimsHex : Option String)
    (sealedClaimsKeyId : Option String) (sealedClaimsKeyVersion : Option Nat) :
    Except String (CitadelAssertion libraries.Value) := do
  let assertion : CitadelAssertion libraries.Value :=
    { version := cnaVersion
      suite := "ml-dsa-65"
      signingKeyId := issuer.signingKeyId
      signingKeyVersion := issuer.signingKeyVersion
      issuedAt := timestamp now
      expiresAt := wrapI64 (timestamp now + wrapI64 ttlSecs)
      assertionId := hexEncode random.1
      publicClaims := publicClaims
      sealedClaimsHex := sealedClaimsHex
      sealedClaimsKeyId := sealedClaimsKeyId
      sealedClaimsKeyVersion := sealedClaimsKeyVersion
      signatureHex := "" }
  let signingInput ← assertion.canonicalSigningInput libraries
  let sigBytes ← (ks.signMessage issuer.seedBytes signingInput).mapError fun error =>
    assertionError s!"signing failed: {error}"
  return { assertion with signatureHex := hexEncode sigBytes }

/-- `issue`. -/
def issue (publicClaims : libraries.Value) (ttlSecs : Nat) :
    Except String (CitadelAssertion libraries.Value) :=
  issuer.issueInner ks libraries now random publicClaims ttlSecs none none none

/-- `issue_with_sealed`. -/
def issueWithSealed (publicClaims : libraries.Value) (ttlSecs : Nat) (sealedClaimsHex : String)
    (sealedClaimsKeyId : String) (sealedClaimsKeyVersion : Nat) :
    Except String (CitadelAssertion libraries.Value) :=
  issuer.issueInner ks libraries now random publicClaims ttlSecs (some sealedClaimsHex)
    (some sealedClaimsKeyId) (some sealedClaimsKeyVersion)

end CitadelAssertionIssuer

/-- The assertion was issued at this time with this lifetime, and the key verifies its
signature. -/
structure Signed (ks : Keystore) (libraries : AssertionLibraries) (now ttlSecs : Nat)
    (verifyingKey : Bytes) (assertion : CitadelAssertion libraries.Value) : Prop where
  version : assertion.version = cnaVersion
  suite : assertion.suite = "ml-dsa-65"
  issuedAt : assertion.issuedAt = timestamp now
  expiresAt : assertion.expiresAt = wrapI64 (timestamp now + wrapI64 ttlSecs)
  verifies : ∃ input signature, assertion.canonicalSigningInput libraries = .ok input ∧
    assertion.signatureHex = hexEncode signature ∧
    ks.verifyMessage verifyingKey input signature = .ok true

/-- An assertion lives for its lifetime: it expires that much later than it was issued, and its
key verifies it at exactly the times before. -/
structure LivesFor (ks : Keystore) (libraries : AssertionLibraries) (now ttlSecs : Nat)
    (verifyingKey : Bytes) (assertion : CitadelAssertion libraries.Value) : Prop where
  issuedAt : assertion.issuedAt = timestamp now
  expiresAt : assertion.expiresAt = assertion.issuedAt + ttlSecs
  accepted : ∀ later, (∃ verified, assertion.verify ks libraries later verifyingKey =
    .ok verified) ↔ timestamp later < assertion.issuedAt + ttlSecs

section Signed

variable {ks : Keystore} {libraries : AssertionLibraries} {now ttlSecs : Nat}
  {verifyingKey : Bytes} {assertion : CitadelAssertion libraries.Value}

/-- An assertion that has expired is refused. -/
theorem CitadelAssertion.verify_expired {later : Nat} (version : assertion.version = cnaVersion)
    (suite : assertion.suite = "ml-dsa-65") (expired : assertion.expiresAt ≤ timestamp later) :
    ∃ message, assertion.verify ks libraries later verifyingKey = .error message := by
  simp only [verify, version, suite, ne_eq, not_true_eq_false, if_false, if_pos expired]
  exact ⟨_, rfl⟩

/-- What was signed is accepted exactly before it expires. -/
theorem Signed.accepted_iff (signed : Signed ks libraries now ttlSecs verifyingKey assertion)
    (later : Nat) :
    (∃ verified, assertion.verify ks libraries later verifyingKey = .ok verified) ↔
      timestamp later < assertion.expiresAt := by
  obtain ⟨version, suite, -, -, input, signature, canonical, carries, verifies⟩ := signed
  constructor
  · rintro ⟨claims, accepted⟩
    by_contra late
    have expired : assertion.expiresAt ≤ timestamp later := by omega
    have refused : ∃ message,
        assertion.verify ks libraries later verifyingKey = .error message :=
      CitadelAssertion.verify_expired version suite expired
    obtain ⟨message, failed⟩ := refused
    rw [accepted] at failed
    cases failed
  · intro before
    exact (CitadelAssertion.verify_iff version suite before canonical carries).mpr verifies

/-- What was signed lives for its lifetime when its expiry fits. -/
theorem Signed.livesFor_iff (signed : Signed ks libraries now ttlSecs verifyingKey assertion) :
    LivesFor ks libraries now ttlSecs verifyingKey assertion ↔
      timestamp now + ttlSecs < 2 ^ 63 := by
  constructor
  · intro lives
    have sum : assertion.expiresAt = timestamp now + ttlSecs := by
      rw [lives.expiresAt, lives.issuedAt]
    rw [signed.expiresAt] at sum
    exact (expiry_eq_iff _ _).mp sum
  · intro fits
    have expires : assertion.expiresAt = assertion.issuedAt + ttlSecs := by
      rw [signed.expiresAt, signed.issuedAt]
      exact (expiry_eq_iff _ _).mpr fits
    refine ⟨signed.issuedAt, expires, ?_⟩
    intro later
    rw [signed.accepted_iff, expires]

end Signed

/-- The assertion was issued at this time for this lifetime: by the server, with a signing key of
its keystore, or offline with a seed. The verifying key is the one of the version that the
assertion names, or the one of the seed. -/
inductive Issued (ks : Keystore) (libraries : AssertionLibraries) :
    Nat → Nat → Bytes → CitadelAssertion libraries.Value → Prop where
  | server {start after : AppState × Moments} {auth : AuthContext} {name : String} {now : Nat}
      {req : AssertionIssueReq libraries.Value} {record : KeyMetadata} {version : KeyVersion}
      {vkBytes : Bytes} {assertion : CitadelAssertion libraries.Value}
      (reachable : Reachable ks anyStep start.1.world) (reads : IssuedAt ks auth name start now)
      (ran : (issueAssertion (citadelAssertions ks libraries) auth name req).run (answering ks)
        start = (.ok assertion, after))
      (found : start.1.world.keys.find? ⟨name⟩ = some record)
      (named : record.getVersion assertion.signingKeyVersion = some version)
      (decoded : hexDecode (utf8 version.publicKeyHex) = .ok vkBytes) :
      Issued ks libraries now req.ttlSecs vkBytes assertion
  | issue {issuer : CitadelAssertionIssuer} {seed : SizedBytes 32} {now ttlSecs : Nat}
      {random : SizedBytes 16} {publicClaims : libraries.Value}
      {assertion : CitadelAssertion libraries.Value} (seeded : issuer.seedBytes = seed.1)
      (ran : issuer.issue ks libraries now random publicClaims ttlSecs = .ok assertion) :
      Issued ks libraries now ttlSecs (ks.crypto.mldsaVerifyingKey seed).1 assertion
  | issueWithSealed {issuer : CitadelAssertionIssuer} {seed : SizedBytes 32} {now ttlSecs : Nat}
      {random : SizedBytes 16} {publicClaims : libraries.Value} {claimsHex claimsKeyId : String}
      {claimsKeyVersion : Nat} {assertion : CitadelAssertion libraries.Value}
      (seeded : issuer.seedBytes = seed.1)
      (ran : issuer.issueWithSealed ks libraries now random publicClaims ttlSecs claimsHex
        claimsKeyId claimsKeyVersion = .ok assertion) :
      Issued ks libraries now ttlSecs (ks.crypto.mldsaVerifyingKey seed).1 assertion

section Issued

variable {ks : Keystore} {libraries : AssertionLibraries} {now ttlSecs : Nat}
  {verifyingKey : Bytes} {assertion : CitadelAssertion libraries.Value}

/-- What the offline issuer returns was signed with its seed. -/
theorem signed_of_issueInner (signs : ks.crypto.Signs) {issuer : CitadelAssertionIssuer}
    {seed : SizedBytes 32} (seeded : issuer.seedBytes = seed.1) {random : SizedBytes 16}
    {publicClaims : libraries.Value} {claimsHex claimsKeyId : Option String}
    {claimsKeyVersion : Option Nat}
    (ran : issuer.issueInner ks libraries now random publicClaims ttlSecs claimsHex claimsKeyId
      claimsKeyVersion = .ok assertion) :
    Signed ks libraries now ttlSecs (ks.crypto.mldsaVerifyingKey seed).1 assertion := by
  obtain ⟨input, canonical, ran⟩ := Except.of_bind_eq_ok ran
  obtain ⟨signature, signed, ran⟩ := Except.of_bind_eq_ok ran
  have made := Except.of_mapError_eq_ok signed
  rw [seeded] at made
  have pair : IsSigningPair ks seed.1 (hexEncode (ks.crypto.mldsaVerifyingKey seed).1) :=
    ⟨seed, rfl, rfl⟩
  obtain ⟨vkBytes, remade, same, remakes, verifies⟩ := pair.signs signs input
  obtain rfl := hexEncode_injective same
  obtain rfl := Except.ok.inj (made.symm.trans remakes)
  rw [← Except.ok.inj ran]
  refine ⟨rfl, rfl, rfl, ?_, input, signature, ?_, rfl, verifies⟩
  -- unfolding the sum does not end
  · dsimp only
  · exact (CitadelAssertion.canonicalSigningInput_signed _ _).trans canonical

/-- What the server returns was signed with the version that it names. -/
theorem signed_of_server (lawful : ks.crypto.Lawful) (signs : ks.crypto.Signs)
    {start after : AppState × Moments} {auth : AuthContext} {name : String}
    {req : AssertionIssueReq libraries.Value} (reachable : Reachable ks anyStep start.1.world)
    (ran : (issueAssertion (citadelAssertions ks libraries) auth name req).run (answering ks)
      start = (.ok assertion, after)) :
    ∃ now record version vkBytes, IssuedAt ks auth name start now ∧
      start.1.world.keys.find? ⟨name⟩ = some record ∧
      record.getVersion assertion.signingKeyVersion = some version ∧
      version.publicKeyHex = hexEncode vkBytes ∧
      Signed ks libraries now req.ttlSecs vkBytes assertion := by
  obtain ⟨-, record, now, random, unsigned, input, payload, found, issued, built, canonical, rfl,
    env, world, left, same, called⟩ := issued_of_run ran
  obtain ⟨-, signer, present, -, current, version, vkBytes, signature, lookup, stores, carries,
    verifies⟩ := Reachable.signed lawful signs reachable same called
  obtain rfl := Option.some.inj (found.symm.trans present)
  rw [← current] at lookup
  cases built
  refine ⟨now, record, version, vkBytes, issued, found, lookup, stores, rfl, rfl, rfl, ?_, input,
    signature, ?_, carries, verifies⟩
  · dsimp only [citadelAssertions]
  · exact (CitadelAssertion.canonicalSigningInput_signed _ _).trans canonical

/-- Whatever was issued was signed. -/
theorem Issued.signed (lawful : ks.crypto.Lawful) (signs : ks.crypto.Signs)
    (issued : Issued ks libraries now ttlSecs verifyingKey assertion) :
    Signed ks libraries now ttlSecs verifyingKey assertion := by
  cases issued with
  | server reachable reads ran found named decoded =>
      obtain ⟨moment, signer, version, vkBytes, read, stored, lookup, stores, signed⟩ :=
        signed_of_server lawful signs reachable ran
      obtain rfl := reads.unique read
      obtain rfl := Option.some.inj (found.symm.trans stored)
      obtain rfl := Option.some.inj (named.symm.trans lookup)
      rw [stores, utf8_hexEncode, hexDecode_hexBytes] at decoded
      cases decoded
      exact signed
  | issue seeded ran => exact signed_of_issueInner signs seeded ran
  | issueWithSealed seeded ran => exact signed_of_issueInner signs seeded ran

/-- An assertion lives for the lifetime it was issued with exactly when the sum of issue time and
lifetime fits into a signed number of 64 bits. -/
theorem assertion_lifetime_iff (ks : Keystore) (libraries : AssertionLibraries)
    (lawful : ks.crypto.Lawful) (signs : ks.crypto.Signs) (now ttlSecs : Nat)
    (verifyingKey : Bytes) (assertion : CitadelAssertion libraries.Value)
    (issued : Issued ks libraries now ttlSecs verifyingKey assertion) :
    LivesFor ks libraries now ttlSecs verifyingKey assertion ↔
      timestamp now + ttlSecs < 2 ^ 63 := (issued.signed lawful signs).livesFor_iff

end Issued

/-- Claims that are valid for this many seconds. -/
def claimsFor (ttlSecs : Nat) : AssertionIssueReq String := ⟨ttlSecs, "null", none, none, none⟩

/-- The signing key of a line issues assertions for every lifetime. -/
theorem line_issued (ttlSecs : Nat) : ∃ assertion verifyingKey,
    Issued plainKeystore plainJson 0 ttlSecs verifyingKey assertion := by
  obtain ⟨world, reachable, grove⟩ := exists_sparing_grove plainKeystore_growable signingLine_grows
  have can := grove.canSign transparent_lawful reachable rfl rfl rfl
  obtain ⟨assertion, after, ran, -⟩ := line_issues grove can (claimsFor ttlSecs)
  have start : Reachable plainKeystore anyStep (lineApp world).world := reachable.any
  obtain ⟨now, record, version, vkBytes, reads, found, named, stores, -⟩ :=
    signed_of_server transparent_lawful transparent_signs start ran
  have decoded : hexDecode (utf8 version.publicKeyHex) = .ok vkBytes := by
    rw [stores, utf8_hexEncode, hexDecode_hexBytes]
  have stored : (lineApp world).begun.world.keys.find? (keyNumbered 3) = some record := found
  have resolves : ResolvesTo (lineApp world).world.keys 10 (keyNumbered 3) (keyNumbered 1) := by
    apply grove.resolves_under_kek rfl rfl rfl
    · intro same
      cases same
    · intro same
      cases same
  obtain rfl : now = 0 := reads.unique ⟨_, _, _, _, line_access resolves, line_get stored, rfl⟩
  exact ⟨assertion, vkBytes, .server start reads ran found named decoded⟩

/-- An assertion of a line for an hour lives for an hour. -/
theorem hour_long_assertion : ∃ assertion verifyingKey,
    Issued plainKeystore plainJson 0 3600 verifyingKey assertion ∧
      LivesFor plainKeystore plainJson 0 3600 verifyingKey assertion := by
  obtain ⟨assertion, verifyingKey, issued⟩ := line_issued 3600
  have fits : timestamp 0 + 3600 < 2 ^ 63 := by decide
  exact ⟨assertion, verifyingKey, issued, (assertion_lifetime_iff plainKeystore plainJson
    transparent_lawful transparent_signs 0 3600 verifyingKey assertion issued).mpr fits⟩

/-- An assertion that is issued for the largest lifetime has expired when it is issued. -/
theorem longest_lived_assertion_expired : ∃ assertion verifyingKey,
    Issued plainKeystore plainJson 0 (2 ^ 64 - 1) verifyingKey assertion ∧
      assertion.expiresAt = -1 ∧
      ¬ (∃ verified, assertion.verify plainKeystore plainJson 0 verifyingKey = .ok verified) ∧
      ¬ LivesFor plainKeystore plainJson 0 (2 ^ 64 - 1) verifyingKey assertion := by
  obtain ⟨assertion, verifyingKey, issued⟩ := line_issued (2 ^ 64 - 1)
  have signed := issued.signed transparent_lawful transparent_signs
  have expires : assertion.expiresAt = -1 := signed.expiresAt.trans (by decide)
  refine ⟨assertion, verifyingKey, issued, expires, ?_, ?_⟩
  · rw [signed.accepted_iff, expires]
    decide
  · rw [signed.livesFor_iff]
    decide

end Citadel.Api
