import Citadel.Keystore.Lifecycle

/-!
# Revocation with its descendants

`revokeCascade` revokes a key and then works through a stack of keys whose children
it suspends. A child that is suspended is pushed in turn; a child that cannot be
suspended is reported and its own children are not visited.
-/

namespace Citadel

/-- The progress of a cascade. The stack's top comes first. -/
structure Cascade where
  suspended : Nat
  errors : List (KeyId × String)
  stack : List KeyId
  deriving DecidableEq, Repr

/-- The record after its suspension. -/
def suspendedRecord (record : KeyMetadata) (now : Nat) : KeyMetadata :=
  { record with state := .suspended, updatedAt := now }

/-- Whether the cascade passes over a child without a word. -/
def alreadyTerminal : KeyState → Bool
  | .destroyed => true
  | .revoked => true
  | .suspended => true
  | _ => false

namespace Keystore

/-- The inner loop: suspend the listed children. -/
def suspendChildren : List KeyMetadata → Cascade → Prog CallError Cascade
  | [], cascade => .ret cascade
  | child :: rest, cascade =>
      if alreadyTerminal child.state then suspendChildren rest cascade
      else if child.state.canTransitionTo .suspended = false then
        suspendChildren rest { cascade with
          errors := cascade.errors ++
            [(child.id, s!"cannot suspend {child.name} key (state: {child.state.display})")] }
      else do
        let now ← utcNow
        let stored ← storagePut (suspendedRecord child now)
        match stored with
        | .ok _ =>
            suspendChildren rest { cascade with
              suspended := cascade.suspended + 1
              stack := child.id :: cascade.stack }
        | .error error =>
            suspendChildren rest { cascade with
              errors := cascade.errors ++ [(child.id, KeystoreError.display error)] }

/-- The outer loop: take the top of the stack and list its children. `fuel` bounds
the number of keys taken. -/
def cascadeLoop : Nat → Cascade → Prog CallError Cascade
  | 0, cascade =>
      match cascade.stack with
      | [] => .ret cascade
      | _ :: _ => .abort .outOfFuel
  | fuel + 1, cascade =>
      match cascade.stack with
      | [] => .ret cascade
      | parentId :: stack => do
          let listed ← storageListByParent parentId
          let children ← Program.ofExcept .cascade listed
          let cascade ← suspendChildren children { cascade with stack := stack }
          cascadeLoop fuel cascade

/-- `CascadeError(e.0)`: the error of the revocation, rewrapped. -/
def cascadeError : CallError → CallError
  | .lifecycle error => .cascade error
  | other => other

/-- `revoke_cascade`: revoked count, suspended count and the children it could not
suspend. -/
def revokeCascade (fuel : Nat) (id : KeyId) :
    Prog CallError (Nat × Nat × List (KeyId × String)) := do
  (revoke id).mapErr cascadeError
  let cascade ← cascadeLoop fuel ⟨0, [], [id]⟩
  .ret (1, cascade.suspended, cascade.errors)

end Keystore

end Citadel
