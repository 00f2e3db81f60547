import Citadel.Api.Revocation

/-!
# What the responses give away

A decryption answers every failure alike, wherever it comes from.
-/

namespace Citadel.Api

open Envelope Program Keystore

variable {ks : Keystore} {code : AssertionCode} {hashApiKey : String → SizedBytes 32}

theorem settle_failsOnly {ε δ α : Type} {admitted : δ → Prop} (outcome : Outcome ε α) :
    (settle outcome : Program Service Service.Ret δ (Except ε α)).FailsOnly admitted := by
  cases outcome <;> trivial

theorem ask_failsOnly {δ : Type} {admitted : δ → Prop} (op : Service) :
    (ask op : Program Service Service.Ret δ op.Ret).FailsOnly admitted := fun _ => trivial

/-- The authorization of a decryption fails in the one way. -/
theorem authorizeDomainAccess_failsOnly (auth : AuthContext) (id : KeyId) :
    (authorizeDomainAccess auth .decrypt (some id)).FailsOnly (· = decryptFailed) := by
  unfold authorizeDomainAccess
  split
  · trivial
  · refine FailsOnly.bind trivial fun target => ?_
    refine FailsOnly.bind (FailsOnly.bind (ask_failsOnly _) settle_failsOnly) fun resolved => ?_
    cases resolved with
    | error error => rfl
    | ok domain =>
        cases auth.allowedDomains with
        | none => trivial
        | some allowed =>
            simp only
            split
            · trivial
            · rfl

theorem decryptData_failsOnly (auth : AuthContext) (body : Option DecryptReq) :
    (decryptData auth body).FailsOnly (· = decryptFailed) := by
  cases body with
  | none => rfl
  | some req =>
      refine FailsOnly.bind (authorizeDomainAccess_failsOnly auth _) fun domain => ?_
      refine FailsOnly.bind (ask_failsOnly _) fun answer => ?_
      cases answer with
      | error reason => rfl
      | ok authz =>
          refine FailsOnly.bind (FailsOnly.bind (ask_failsOnly _) settle_failsOnly) fun opened => ?_
          cases opened with
          | ok plaintext => trivial
          | error error => rfl

/-- A failed decryption of a caller that got to the route has the one response. -/
theorem Arrival.decrypt_failed {arrival : Arrival code} {app : AppState} {entry : ApiKeyEntry}
    {body : Option DecryptReq} {error : ApiError} (called : arrival.caller app = .ok entry)
    (asked : arrival.request = .decrypt body)
    (failed : (arrival.run ks hashApiKey app).1 = .err error) : error = decryptFailed := by
  rw [Arrival.run, called, asked] at failed
  have only : (Request.route entry.context (.decrypt body : Request code)).FailsOnly
      (· = decryptFailed) :=
    FailsOnly.bind (decryptData_failsOnly _ body) fun _ => trivial
  have played : ((Request.route entry.context (.decrypt body)).run (answering ks)
      (app, arrival.moments)).1 = .err error := failed
  exact only.run played

/-- Any two decryptions that fail, of any callers in any states, have the same response. -/
theorem decrypt_failures_alike (ks : Keystore) (code : AssertionCode)
    (hashApiKey : String → SizedBytes 32) (first second : Arrival code) (one other : AppState)
    (caller stranger : ApiKeyEntry) (body data : Option DecryptReq) (error problem : ApiError)
    (firstCalled : first.caller one = .ok caller) (secondCalled : second.caller other = .ok stranger)
    (firstAsked : first.request = .decrypt body) (secondAsked : second.request = .decrypt data)
    (firstFailed : (first.run ks hashApiKey one).1 = .err error)
    (secondFailed : (second.run ks hashApiKey other).1 = .err problem) : error = problem := by
  rw [Arrival.decrypt_failed firstCalled firstAsked firstFailed,
    Arrival.decrypt_failed secondCalled secondAsked secondFailed]

/-- The error of an outcome. -/
def error? {ε α : Type} : Outcome ε α → Option ε
  | .err error => some error
  | _ => none

theorem eq_err_of_error? {ε α : Type} {outcome : Outcome ε α} {error : ε}
    (failed : error? outcome = some error) : outcome = .err error := by
  cases outcome with
  | err problem => exact congrArg Outcome.err (Option.some.inj failed)
  | ok value => cases failed
  | aborted why => cases failed

/-- A decryption that the configured admin asks for. -/
def adminDecrypts (body : Option DecryptReq) : Arrival noAssertions :=
  ⟨some configuredHash, .decrypt body, fun _ => quietMoment 1⟩

/-- What is no request and a blob of an unknown key are answered alike. -/
theorem malformed_and_unknown_alike :
    ∃ error problem,
      ((adminDecrypts none).run plainKeystore (fun _ => configuredHash) (serverAfter [])).1 =
        .err error ∧
      ((adminDecrypts (some ⟨⟨"unknown", 1, "", 0⟩, "", ""⟩)).run plainKeystore
        (fun _ => configuredHash) (serverAfter [])).1 = .err problem ∧
      error = problem := by
  have malformed : ((adminDecrypts none).run plainKeystore (fun _ => configuredHash)
      (serverAfter [])).1 = .err decryptFailed := by
    apply eq_err_of_error?
    decide +kernel
  have unknown : ((adminDecrypts (some ⟨⟨"unknown", 1, "", 0⟩, "", ""⟩)).run plainKeystore
      (fun _ => configuredHash) (serverAfter [])).1 = .err decryptFailed := by
    apply eq_err_of_error?
    decide +kernel
  refine ⟨decryptFailed, decryptFailed, malformed, unknown, ?_⟩
  exact decrypt_failures_alike plainKeystore noAssertions (fun _ => configuredHash)
    (adminDecrypts none) (adminDecrypts (some ⟨⟨"unknown", 1, "", 0⟩, "", ""⟩)) (serverAfter [])
    (serverAfter []) (bootstrapEntry configuredHash "") (bootstrapEntry configuredHash "") none
    (some ⟨⟨"unknown", 1, "", 0⟩, "", ""⟩) _ _ (by decide +kernel) (by decide +kernel) rfl rfl
    malformed unknown

end Citadel.Api
