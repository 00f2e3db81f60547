import Citadel.Keystore.Unwrapping
import Citadel.Keystore.VersionValidity

/-!
# Where unwrapping cuts a text

The text of an encrypted secret is cut after the 24 bytes of its nonce, and only the number of
its bytes is checked before. A text read from disk can have a character across that place, and
the cut then panics. Everything else that unwrapping meets (a text that is no hexadecimal, a
missing parent, a cycle) ends with an error, after a bounded number of reads.
-/

namespace Citadel

open Program

namespace Keystore

/-- The text passes the check of its length and is then cut inside a character. -/
def CutInside (text : String) : Prop :=
  (utf8 "enc:").isPrefixOf (utf8 text) = true ∧ 24 ≤ ((utf8 text).drop 4).length ∧
    isCharBoundary ((utf8 text).drop 4) 24 = false

/-- Unwrapping the version cuts its text inside a character. -/
def Splits (ks : Keystore) (version : KeyVersion) : Prop :=
  ks.masterKey ≠ none ∧ ∃ text, version.secretKeyMaterial = .encrypted text ∧ CutInside text

/-- Unwrapping one version goes on with a version of its parent. -/
structure LeadsTo (keys : Keys) (skip : Bool) (turn : Turn) (version : KeyVersion)
    (parentId : String) (parentVersion : KeyVersion) : Prop where
  wrapped : ∃ text, version.secretKeyMaterial = .citadelWrapped text
  named : version.wrappingKeyId = some parentId
  answers : turn.env.getFault ⟨parentId⟩ = none
  stored : ∃ parent number, keys.find? ⟨parentId⟩ = some parent ∧
    (skip = true ∨ parent.state.canDecrypt = true) ∧
    version.wrappingKeyVersion = some number ∧ parent.getVersion number = some parentVersion

/-- The versions that unwrapping comes to: the first one, and up the chain as far as the levels
last. -/
inductive UnwrapsThrough (keys : Keys) (skip : Bool) :
    Nat → Turns → KeyVersion → KeyVersion → Prop where
  | itself {levels : Nat} {turns : Turns} {version : KeyVersion} :
      UnwrapsThrough keys skip (levels + 1) turns version version
  | parent {levels : Nat} {turns : Turns} {version parentVersion other : KeyVersion}
      {parentId : String} (leads : LeadsTo keys skip (turns 0) version parentId parentVersion)
      (through : UnwrapsThrough keys skip levels (fun position => turns (position + 1))
        parentVersion other) :
      UnwrapsThrough keys skip (levels + 1) turns version other

section

variable {ks : Keystore} {keys : Keys} {skip : Bool} {levels : Nat} {id : KeyId}
  {version : KeyVersion}

/-! ### One secret -/

/-- Unwrapping under the master key answers, unless it cuts a character. -/
theorem unwrapEncrypted_ends_iff {σ : Type} {handler : (op : Op) → σ → op.Ret × σ} {state : σ}
    {number : Nat} {text : String} :
    Ends handler (ks.unwrapEncrypted id number text) state ↔
      ¬ (ks.masterKey ≠ none ∧ CutInside text) := by
  unfold unwrapEncrypted
  cases set : ks.masterKey with
  | none => exact ⟨fun _ cut => cut.1 rfl, fun _ => ends_fail⟩
  | some masterKey =>
      dsimp only
      by_cases marked : (utf8 "enc:").isPrefixOf (utf8 text) = true
      · rw [if_pos marked]
        by_cases short : ((utf8 text).drop 4).length < 24
        · rw [if_pos short]
          exact ⟨fun _ cut => Nat.not_lt.mpr cut.2.2.1 short, fun _ => ends_fail⟩
        · rw [if_neg short]
          by_cases boundary : isCharBoundary ((utf8 text).drop 4) 24 = true
          · rw [if_pos boundary]
            constructor
            · intro _ cut
              rw [cut.2.2.2] at boundary
              cases boundary
            · intro _
              apply ends_ofExcept_bind
              intro nonceBytes _
              apply ends_ofExcept_bind
              intro ciphertext _
              apply ends_ofExcept_bind
              intro nonce _
              exact ends_ofOption
          · rw [if_neg boundary]
            constructor
            · intro ended
              exact absurd rfl (ended _)
            · intro whole
              refine absurd ⟨?_, marked, Nat.not_lt.mp short, ?_⟩ whole
              · intro absent
                cases absent
              · simpa using boundary
      · rw [if_neg marked]
        exact ⟨fun _ cut => marked cut.2.1, fun _ => ends_fail⟩

/-! ### The chain of parents -/

/-- Unwrapping reads one record for each level at most. -/
theorem unwrapKeyVersionInner_asks :
    (ks.unwrapKeyVersionInner skip levels id version).AsksAtMost levels := by
  induction levels generalizing id version with
  | zero => trivial
  | succ levels ih =>
      unfold unwrapKeyVersionInner
      cases version.secretKeyMaterial with
      | destroyed => trivial
      | plaintext text => exact asksAtMost_of_uses_nothing uses_ofExcept
      | encrypted text => exact asksAtMost_of_uses_nothing (unwrapEncrypted_uses_nothing _ _)
      | citadelWrapped text =>
          apply AsksAtMost.bindUses uses_ofOption
          intro parentId
          refine ⟨Nat.succ_pos levels, ?_⟩
          intro loaded
          apply AsksAtMost.bindUses uses_ofExcept
          intro found
          apply AsksAtMost.bindUses uses_ofOption
          intro parent
          by_cases refused : (!skip && !parent.state.canDecrypt) = true
          · rw [if_pos refused]
            trivial
          · rw [if_neg refused]
            apply AsksAtMost.bindUses uses_ofOption
            intro number
            apply AsksAtMost.bindUses uses_ofOption
            intro parentVersion
            refine AsksAtMost.bind ih ?_ (Nat.le_of_eq (Nat.add_zero levels))
            intro parentSecret
            exact asksAtMost_of_uses_nothing (unwrapSealed_uses_nothing _ _ _ _)

section Chain

variable {world : World} {turns : Turns} {parentId : String} {parentVersion : KeyVersion}

/-- Unwrapping a sealed version that leads to its parent's version unwraps that version first. -/
theorem unwrap_ends_iff_of_leadsTo
    (leads : LeadsTo world.keys skip (turns 0) version parentId parentVersion) :
    Ends handleTurn (ks.unwrapKeyVersionInner skip (levels + 1) id version) (world, turns) ↔
      Ends handleTurn (ks.unwrapKeyVersionInner skip levels ⟨parentId⟩ parentVersion)
        ({ world with now := (turns 0).now }, fun position => turns (position + 1)) := by
  obtain ⟨⟨text, wrapped⟩, named, answers, parent, number, found, readable, wrappedAt, lookup⟩ :=
    leads
  have passes : (!skip && !parent.state.canDecrypt) = false := by
    rcases readable with skips | reads
    · simp [skips]
    · simp [reads]
  have loaded : handleTurn (.get ⟨parentId⟩) (world, turns) =
      (.ok (some parent), { world with now := (turns 0).now },
        fun position => turns (position + 1)) := by
    simp only [handleTurn, handle, answers, faulty, found]
  have first : Ends handleTurn (ks.unwrapKeyVersionInner skip (levels + 1) id version)
      (world, turns) ↔ Ends handleTurn (ks.unwrapKeyVersionInner skip levels ⟨parentId⟩
        parentVersion >>= fun parentSecret =>
          ks.unwrapSealed id version.version parentId parentSecret text)
        (handleTurn (.get ⟨parentId⟩) (world, turns)).2 := by
    conv => lhs; unfold unwrapKeyVersionInner
    unfold Ends
    simp only [wrapped, named, Program.ofOption, ret_bind, call_bind, run_perform, loaded,
      Program.ofExcept, passes, wrappedAt, lookup, Bool.false_eq_true, if_false]
  rw [first, loaded, ends_bind]
  constructor
  · intro ended
    exact ended.1
  · intro ended
    exact ⟨ended, fun _ _ _ => unwrapSealed_ends⟩

/-- Unwrapping a sealed version that leads nowhere ends with an error. -/
theorem unwrap_ends_of_not_leadsTo {text : String}
    (wrapped : version.secretKeyMaterial = .citadelWrapped text)
    (alone : ∀ parentId parentVersion,
      ¬ LeadsTo world.keys skip (turns 0) version parentId parentVersion) :
    Ends handleTurn (ks.unwrapKeyVersionInner skip (levels + 1) id version) (world, turns) := by
  unfold unwrapKeyVersionInner
  simp only [wrapped]
  apply ends_ofOption_bind
  intro parentId named
  change Ends handleTurn (Program.ofExcept _ (handleTurn (.get ⟨parentId⟩) (world, turns)).1 >>= _)
    (handleTurn (.get ⟨parentId⟩) (world, turns)).2
  apply ends_ofExcept_bind
  intro found answered
  apply ends_ofOption_bind
  intro parent present
  subst present
  by_cases refused : (!skip && !parent.state.canDecrypt) = true
  · rw [if_pos refused]
    exact ends_fail
  · rw [if_neg refused]
    apply ends_ofOption_bind
    intro number wrappedAt
    apply ends_ofOption_bind
    intro parentVersion lookup
    have stored : world.keys.find? ⟨parentId⟩ = some parent := (eq_of_faulty_eq_ok answered).symm
    have answers : (turns 0).env.getFault ⟨parentId⟩ = none := by
      cases fault : (turns 0).env.getFault ⟨parentId⟩ with
      | none => rfl
      | some error =>
          simp only [handleTurn, handle, fault, faulty] at answered
          cases answered
    refine absurd ⟨⟨text, wrapped⟩, named, answers, parent, number, stored, ?_, wrappedAt, lookup⟩
      (alone parentId parentVersion)
    cases skip with
    | true => exact .inl rfl
    | false => exact .inr (by simpa using refused)

/-- A version leads to one version of one parent. -/
theorem LeadsTo.unique {turn : Turn} {otherId : String} {otherVersion : KeyVersion}
    (left : LeadsTo keys skip turn version parentId parentVersion)
    (right : LeadsTo keys skip turn version otherId otherVersion) :
    parentVersion = otherVersion := by
  have sameId : parentId = otherId := Option.some.inj (left.named.symm.trans right.named)
  subst sameId
  obtain ⟨parent, number, found, -, wrappedAt, lookup⟩ := left.stored
  obtain ⟨parent', number', found', -, wrappedAt', lookup'⟩ := right.stored
  have sameParent : parent = parent' := Option.some.inj (found.symm.trans found')
  have sameNumber : number = number' := Option.some.inj (wrappedAt.symm.trans wrappedAt')
  subst sameParent sameNumber
  exact Option.some.inj (lookup.symm.trans lookup')

/-- A version that leads nowhere is all that unwrapping comes to. -/
theorem unwrap_ends_iff_of_not_leadsTo
    (alone : ∀ parentId parentVersion,
      ¬ LeadsTo world.keys skip (turns 0) version parentId parentVersion) :
    Ends handleTurn (ks.unwrapKeyVersionInner skip (levels + 1) id version) (world, turns) ↔
      ¬ Splits ks version := by
  unfold Splits
  cases material : version.secretKeyMaterial with
  | encrypted text =>
      unfold unwrapKeyVersionInner
      simp only [material]
      rw [unwrapEncrypted_ends_iff]
      simp
  | citadelWrapped text =>
      constructor
      · rintro - ⟨-, other, same, -⟩
        cases same
      · intro _
        exact unwrap_ends_of_not_leadsTo material alone
  | destroyed =>
      unfold unwrapKeyVersionInner
      simp only [material]
      constructor
      · rintro - ⟨-, other, same, -⟩
        cases same
      · intro _
        exact ends_fail
  | plaintext text =>
      unfold unwrapKeyVersionInner
      simp only [material]
      constructor
      · rintro - ⟨-, other, same, -⟩
        cases same
      · intro _
        exact ends_ofExcept

/-- Unwrapping answers, unless a version that it comes to cuts a character. -/
theorem unwrap_ends_iff :
    Ends handleTurn (ks.unwrapKeyVersionInner skip levels id version) (world, turns) ↔
      ∀ other, UnwrapsThrough world.keys skip levels turns version other → ¬ Splits ks other := by
  induction levels generalizing id version world turns with
  | zero =>
      constructor
      · intro _ other through
        cases through
      · intro _
        exact ends_fail
  | succ levels ih =>
      by_cases leads : ∃ parentId parentVersion,
          LeadsTo world.keys skip (turns 0) version parentId parentVersion
      · obtain ⟨parentId, parentVersion, leads⟩ := leads
        rw [unwrap_ends_iff_of_leadsTo leads, ih]
        constructor
        · intro whole other through
          cases through with
          | itself =>
              -- a sealed version is not cut itself
              rintro ⟨-, text, encrypted, -⟩
              obtain ⟨sealedText, wrapped⟩ := leads.wrapped
              rw [wrapped] at encrypted
              cases encrypted
          | parent again through =>
              rw [← leads.unique again] at through
              exact whole other through
        · intro whole other through
          exact whole other (.parent leads through)
      · have alone : ∀ parentId parentVersion,
            ¬ LeadsTo world.keys skip (turns 0) version parentId parentVersion :=
          fun parentId parentVersion found => leads ⟨parentId, parentVersion, found⟩
        rw [unwrap_ends_iff_of_not_leadsTo alone]
        constructor
        · intro whole other through
          cases through with
          | itself => exact whole
          | parent found _ => exact absurd found (alone _ _)
        · intro whole
          exact whole version .itself

end Chain

end

/-- From any depth, over any store and any failures, `unwrap_key_version_inner` reads no more
records than it has levels left, and answers exactly when no version that it comes to is cut
inside a character. -/
theorem unwrapping_answers_iff (ks : Keystore) (world : World) (turns : Turns) (skip : Bool)
    (depth : Nat) (id : KeyId) (version : KeyVersion) :
    ((ks.unwrapKeyVersionInner skip (maxUnwrapDepth + 1 - depth) id version).performed handleTurn
        (world, turns)).length ≤ maxUnwrapDepth + 1 - depth ∧
      (Ends handleTurn (ks.unwrapKeyVersionInner skip (maxUnwrapDepth + 1 - depth) id version)
          (world, turns) ↔
        ∀ other, UnwrapsThrough world.keys skip (maxUnwrapDepth + 1 - depth) turns version other →
          ¬ Splits ks other) := by
  constructor
  · exact unwrapKeyVersionInner_asks.length_performed_le
  · exact unwrap_ends_iff

/-- A version read from a text with a character across the end of the nonce. -/
def accentedVersion : KeyVersion :=
  ⟨1, 0, "", .deserialize "enc:aaaaaaaaaaaaaaaaaaaaaaaé", none, none, none, none⟩

/-- Unwrapping it panics. -/
theorem accented_text_panics :
    accentedVersion.secretKeyMaterial = .encrypted "enc:aaaaaaaaaaaaaaaaaaaaaaaé" ∧
      ((masterKeystore.unwrapKeyVersionInner false (maxUnwrapDepth + 1) ⟨"k"⟩ accentedVersion).run
        handleTurn (World.initial 0 (.memory ⟨1, []⟩), fun _ => ⟨0, quietEnv 0⟩)).1 =
          .aborted (.panic "byte index 24 is not a char boundary") := by
  decide

end Keystore

end Citadel
