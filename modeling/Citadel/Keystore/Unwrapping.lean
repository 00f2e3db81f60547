import Citadel.Keystore.Reading

/-!
# Unwrapping as a relation on the stored keys

`Unwraps` says what unwrapping one version yields over a table of keys, level by
level. It agrees with the code whenever the backend answers, and never says more
than the code when it does not.
-/

namespace Citadel

open Envelope Program

namespace Keystore

variable {ks : Keystore} {env : Env} {world after : World} {skip : Bool} {levels : Nat}
  {id : KeyId} {version : KeyVersion} {secret : Bytes}

/-- What a version's material unwraps to. `levels` bounds the records that are read
on the way and `skip` reads through parents in any state. -/
inductive Unwraps (ks : Keystore) (keys : Keys) (skip : Bool) :
    Nat → KeyId → KeyVersion → Bytes → Prop where
  | plaintext {levels : Nat} {id : KeyId} {version : KeyVersion} {text : String} {secret : Bytes}
      (material : version.secretKeyMaterial = .plaintext text)
      (decodes : hexDecode (utf8 text) = .ok secret) :
      Unwraps ks keys skip (levels + 1) id version secret
  | encrypted {levels : Nat} {id : KeyId} {version : KeyVersion} {text : String} {secret : Bytes}
      (material : version.secretKeyMaterial = .encrypted text)
      (opens : ks.unwrapEncrypted id version.version text = .ret secret) :
      Unwraps ks keys skip (levels + 1) id version secret
  | sealed {levels : Nat} {id : KeyId} {version : KeyVersion} {text parentId : String}
      {parent : KeyMetadata} {number : Nat} {parentVersion : KeyVersion}
      {parentSecret secret : Bytes}
      (material : version.secretKeyMaterial = .citadelWrapped text)
      (wrappedBy : version.wrappingKeyId = some parentId)
      (found : keys.find? ⟨parentId⟩ = some parent)
      (readable : skip = true ∨ parent.state.canDecrypt = true)
      (wrappedAt : version.wrappingKeyVersion = some number)
      (lookup : parent.getVersion number = some parentVersion)
      (unwraps : Unwraps ks keys skip levels ⟨parentId⟩ parentVersion parentSecret)
      (opens : ks.unwrapSealed id version.version parentId parentSecret text = .ret secret) :
      Unwraps ks keys skip (levels + 1) id version secret

/-- A program that performs nothing has its run for its code. -/
theorem eq_ret_of_uses_nothing {ε α : Type} {program : Prog ε α} {value : α}
    (uses : program.Uses fun _ => False)
    (ran : program.run (handle env) world = (.ok value, after)) : program = .ret value := by
  cases program with
  | ret result =>
      cases ran
      rfl
  | fail error => cases ran
  | abort why => cases ran
  | perform op next => exact uses.1.elim

theorem unwrapEncrypted_uses_nothing (text : String) (number : Nat) :
    (ks.unwrapEncrypted id number text).Uses fun _ => False := by
  unfold unwrapEncrypted
  split
  · trivial
  · split
    · simp only
      split
      · trivial
      · split
        · refine Uses.bind uses_ofExcept fun nonceBytes => ?_
          refine Uses.bind uses_ofExcept fun ciphertext => ?_
          exact Uses.bind uses_ofExcept fun nonce => uses_ofOption
        · trivial
    · trivial

theorem unwrapSealed_uses_nothing (number : Nat) (parentId : String) (parentSecret : Bytes)
    (text : String) :
    (ks.unwrapSealed id number parentId parentSecret text).Uses fun _ => False := by
  refine Uses.bind uses_ofExcept fun parentSk => ?_
  split
  · exact Uses.bind uses_ofExcept fun ciphertext => uses_ofExcept
  · trivial

/-- Opening a sealed secret answers. -/
theorem unwrapSealed_ends {σ : Type} {handler : (op : Op) → σ → op.Ret × σ} {state : σ}
    {number : Nat} {parentId text : String} {parentSecret : Bytes} :
    Ends handler (ks.unwrapSealed id number parentId parentSecret text) state := by
  apply ends_ofExcept_bind
  intro parentSk _
  by_cases marked : (utf8 "ckw:").isPrefixOf (utf8 text) = true
  · rw [if_pos marked]
    apply ends_ofExcept_bind
    intro ciphertext _
    exact ends_ofExcept
  · rw [if_neg marked]
    exact ends_fail

/-- What the code unwrapped is what the stored keys say. -/
theorem unwraps_of_run
    (ran : (ks.unwrapKeyVersionInner skip levels id version).run (handle env) world =
      (.ok secret, after)) : Unwraps ks world.keys skip levels id version secret := by
  induction levels generalizing id version secret after with
  | zero => cases ran
  | succ levels ih =>
      unfold unwrapKeyVersionInner at ran
      split at ran
      · cases ran
      · rename_i text material
        exact .plaintext material (of_run_ofExcept_eq_ok ran)
      · rename_i text material
        exact .encrypted material
          (eq_ret_of_uses_nothing (unwrapEncrypted_uses_nothing text version.version) ran)
      · rename_i text material
        obtain ⟨parentId, wrappedBy, loading⟩ := of_run_ofOption_bind_eq_ok ran
        obtain ⟨parent, found, checking⟩ := find?_of_loaded loading
        obtain ⟨readable, rest⟩ := of_run_guard_eq_ok checking
        obtain ⟨number, wrappedAt, rest⟩ := of_run_ofOption_bind_eq_ok rest
        obtain ⟨parentVersion, lookup, rest⟩ := of_run_ofOption_bind_eq_ok rest
        obtain ⟨parentSecret, unwrapped, opening⟩ :=
          (unwrapKeyVersionInner_reads _ _ _ _).of_run_bind_eq_ok
            (fun op reads => handle_of_reads reads) rest
        refine .sealed material wrappedBy found ?_ wrappedAt lookup (ih unwrapped)
          (eq_ret_of_uses_nothing (unwrapSealed_uses_nothing _ _ _ _) opening)
        cases skip with
        | true => exact Or.inl rfl
        | false => exact Or.inr (by simpa using readable)

/-- What the stored keys say is what the code unwraps, when the backend answers. -/
theorem run_of_unwraps (answers : ∀ id, env.getFault id = none)
    (unwraps : Unwraps ks world.keys skip levels id version secret) :
    (ks.unwrapKeyVersionInner skip levels id version).run (handle env) world =
      (.ok secret, world) := by
  induction unwraps with
  | plaintext material decodes =>
      simp [unwrapKeyVersionInner, material, decodeHex, decodes, Program.ofExcept]
  | encrypted material opens => simp [unwrapKeyVersionInner, material, opens]
  | @sealed levels id version text parentId parent number parentVersion parentSecret secret
      material wrappedBy found readable wrappedAt lookup unwraps opens ih =>
      have passes : (!skip && !parent.state.canDecrypt) = false := by
        rcases readable with skips | reads
        · simp [skips]
        · simp [reads]
      unfold unwrapKeyVersionInner
      simp only [material, wrappedBy, wrappedAt, lookup, found, passes, answers, storageGet,
        Program.ofOption, Program.ofExcept, call_bind, ret_bind, run_perform, handle, faulty,
        Bool.false_eq_true, if_false, run_bind, ih, andThen_ok, opens, run_ret]

end Keystore

end Citadel
