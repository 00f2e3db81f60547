import Citadel.Keystore.Cascade
import Citadel.Keystore.Encryption

/-!
# Calls and sequential runs

A `Call` is one public operation with its arguments. A sequential run is a list of
steps: the clock is read anew, and a call is played to its end in one environment.
-/

namespace Citadel

open Envelope

/-- One operation of the keystore. -/
inductive Call where
  | generate (name : String) (keyType : KeyType) (policyId : Option PolicyId)
      (parentId : Option KeyId)
  | generateSigningKey (name : String) (policyId : Option PolicyId) (parentId : KeyId)
  | activate (id : KeyId)
  | rotate (id : KeyId)
  | rewrap (id : KeyId) (newParentId : Option KeyId)
  | revoke (id : KeyId)
  | revokeCascade (id : KeyId)
  | expire (id : KeyId)
  | expireDueKeys
  | destroy (id : KeyId)
  | encrypt (keyId : KeyId) (plaintext : Bytes) (aad : Aad) (context : Context)
  | decrypt (blob : EncryptedBlob) (aad : Aad) (context : Context)
  | sign (keyId : KeyId) (message : Bytes)

/-- What a call returns. -/
inductive CallValue where
  | done
  | key (id : KeyId)
  | cascade (revoked suspended : Nat) (errors : List (KeyId × String))
  | source (source : ExpirationSource)
  | report (report : ExpirationReport)
  | blob (blob : EncryptedBlob)
  | plaintext (bytes : Bytes)
  | signature (payload : SignedPayload)
  deriving DecidableEq, Repr

/-- The key a call is on, for the calls that name one. -/
def Call.target : Call → Option KeyId
  | .activate id => some id
  | .rotate id => some id
  | .rewrap id _ => some id
  | .revoke id => some id
  | .revokeCascade id => some id
  | .expire id => some id
  | .destroy id => some id
  | .encrypt keyId _ _ _ => some keyId
  | .decrypt blob _ _ => some ⟨blob.keyId⟩
  | .sign keyId _ => some keyId
  | .generate _ _ _ _ => none
  | .generateSigningKey _ _ _ => none
  | .expireDueKeys => none

/-- The code of a call. `fuel` bounds the keys a cascade works through. -/
def Call.prog (ks : Keystore) (fuel : Nat) : Call → Prog CallError CallValue
  | .generate name keyType policyId parentId => do
      return .key (← ks.generate name keyType policyId parentId)
  | .generateSigningKey name policyId parentId => do
      return .key (← ks.generateSigningKey name policyId parentId)
  | .activate id => do
      Keystore.activate id
      return .done
  | .rotate id => do return .key (← ks.rotate id)
  | .rewrap id newParentId => do
      ks.rewrap id newParentId
      return .done
  | .revoke id => do
      Keystore.revoke id
      return .done
  | .revokeCascade id => do
      let (revoked, suspended, errors) ← Keystore.revokeCascade fuel id
      return .cascade revoked suspended errors
  | .expire id => do return .source (← ks.expire id)
  | .expireDueKeys => do return .report (← ks.expireDueKeys)
  | .destroy id => do
      Keystore.destroy id
      return .done
  | .encrypt keyId plaintext aad context => do
      return .blob (← ks.encrypt keyId plaintext aad context)
  | .decrypt blob aad context => do return .plaintext (← ks.decrypt blob aad context)
  | .sign keyId message => do return .signature (← ks.sign keyId message)

/-- Play a call alone. A cascade visits no key twice, so the number of stored keys
is enough fuel. -/
def Call.run (ks : Keystore) (env : Env) (call : Call) (world : World) :
    Outcome CallError CallValue × World :=
  (call.prog ks (world.keys.entries.length + 1)).run (handle env) world

/-- One step of a sequential run. -/
structure Step where
  /-- What the clock shows at the call. -/
  now : Nat
  env : Env
  call : Call

/-- The state in which the call of a step runs. -/
def Step.enter (step : Step) (world : World) : World := { world with now := step.now }

/-- The outcome of a step and the state it leaves. -/
def Step.run (ks : Keystore) (step : Step) (world : World) :
    Outcome CallError CallValue × World :=
  step.call.run ks step.env (step.enter world)

/-- A step ends as its call does when fuel plays no part. -/
theorem Step.run_of_prog {ks : Keystore} {env : Env} {call : Call} {world : World} {now : Nat}
    {result : Outcome CallError CallValue × World}
    (ran : ∀ fuel, (call.prog ks fuel).run (handle env) { world with now := now } = result) :
    (Step.mk now env call).run ks world = result :=
  ran _

/-- The states before and after every operation of a step. -/
def Step.transitions (ks : Keystore) (step : Step) (world : World) : List (World × World) :=
  (step.call.prog ks (world.keys.entries.length + 1)).transitions (handle step.env)
    (step.enter world)

/-- A key identifier drawn at random is not in use. -/
def Step.Fresh (step : Step) (world : World) : Prop :=
  world.keys.find? (KeyId.generate step.env.randomness.keyId) = none

/-- A keystore with no keys yet. -/
def World.initial (now : Nat) (replay : ReplayStore) : World := ⟨now, Table.empty, replay⟩

/-- The states reached from `start` by steps that all satisfy a condition on the
step and the state before it. -/
inductive Reaches (ks : Keystore) (allowed : Step → World → Prop) (start : World) :
    World → Prop where
  | refl : Reaches ks allowed start start
  | step {world : World} (step : Step) (prior : Reaches ks allowed start world)
      (fresh : step.Fresh world) (allows : allowed step world) :
      Reaches ks allowed start (step.run ks world).2

/-- Every step is allowed. -/
def anyStep (_ : Step) (_ : World) : Prop := True

/-- The states reached from an empty keystore. -/
def Reachable (ks : Keystore) (allowed : Step → World → Prop) (world : World) : Prop :=
  ∃ now replay, Reaches ks allowed (.initial now replay) world

/-- Play steps in order. -/
def playSteps (ks : Keystore) (steps : List Step) (world : World) : World :=
  steps.foldl (fun world step => (step.run ks world).2) world

end Citadel
