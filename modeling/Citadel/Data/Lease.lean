import Mathlib.Logic.Function.Basic

/-!
# Leases

Keys that callers take for a fixed time from a store that they share. A key can be taken
when it is free; it is free again when its time is over or when somebody gives it back. The
answer to a caller may get lost on the way, after the key was taken.

`Kept` says what holds for those that were told that a key is theirs: as long as a key is
only given back while its time is not over, two of them took it at least one lease apart.
-/

namespace Citadel

/-- When each key is free again. -/
abbrev Leases (κ : Type) := κ → Nat

namespace Leases

section Changes

variable {κ : Type} [DecidableEq κ]

/-- A key is taken. -/
def Taken (leases : Leases κ) (now : Nat) (key : κ) : Prop := now < leases key

instance decidableTaken (leases : Leases κ) (now : Nat) (key : κ) :
    Decidable (leases.Taken now key) :=
  inferInstanceAs (Decidable (now < leases key))

/-- A key is taken until an instant. -/
def take (leases : Leases κ) (key : κ) (ends : Nat) : Leases κ := Function.update leases key ends

/-- A key is given back. -/
def giveBack (leases : Leases κ) (key : κ) : Leases κ := Function.update leases key 0

end Changes

/-- Those that were told that a key is theirs, and when they took it. -/
abbrev Tenants (ι κ : Type) := ι → Option (κ × Nat)

/-- Every tenant's key is taken for its time, and no two tenants' times overlap. -/
structure Kept {ι κ : Type} (term : Nat) (leases : Leases κ) (tenants : Tenants ι κ) (now : Nat) :
    Prop where
  past : ∀ tenant key since, tenants tenant = some (key, since) → since ≤ now
  taken : ∀ tenant key since, tenants tenant = some (key, since) → now < since + term →
    leases key = since + term
  apart : ∀ left right key first second, left ≠ right → tenants left = some (key, first) →
    tenants right = some (key, second) → first + term ≤ second ∨ second + term ≤ first

namespace Kept

variable {ι κ : Type} {term now later : Nat} {leases others : Leases κ} {tenants : Tenants ι κ}
  {tenant : ι} {key : κ} {since : Nat}

theorem initially : Kept term leases (fun _ : ι => none) now where
  past := fun _ _ _ none => by cases none
  taken := fun _ _ _ none _ => by cases none
  apart := fun _ _ _ _ _ _ none => by cases none

/-- Time passes, and other keys change. -/
theorem pass (kept : Kept term leases tenants now) (le : now ≤ later)
    (same : ∀ tenant key since, tenants tenant = some (key, since) → others key = leases key) :
    Kept term others tenants later where
  past := fun tenant key since holds => Nat.le_trans (kept.past tenant key since holds) le
  taken := by
    intro tenant key since holds live
    rw [same tenant key since holds]
    exact kept.taken tenant key since holds (Nat.lt_of_le_of_lt le live)
  apart := kept.apart

/-- Whoever had a key that is free has had it for its time. -/
theorem over_of_free (kept : Kept term leases tenants now) (free : ¬ leases.Taken now key)
    (holds : tenants tenant = some (key, since)) : since + term ≤ now := by
  by_contra live
  have still : now < since + term := Nat.lt_of_not_le live
  apply free
  rw [Taken, kept.taken tenant key since holds still]
  exact still

/-- Somebody is no tenant any more. -/
theorem leave [DecidableEq ι] (kept : Kept term leases tenants now) (tenant : ι) :
    Kept term leases (Function.update tenants tenant none) now := by
  have before : ∀ {other key since}, Function.update tenants tenant none other = some (key, since) →
      tenants other = some (key, since) := by
    intro other key since holds
    by_cases same : other = tenant
    · subst same
      rw [Function.update_self] at holds
      cases holds
    · rwa [Function.update_of_ne same] at holds
  constructor
  · exact fun other key since holds => kept.past other key since (before holds)
  · exact fun other key since holds => kept.taken other key since (before holds)
  · exact fun left right key first second different leftHolds rightHolds =>
      kept.apart left right key first second different (before leftHolds) (before rightHolds)

variable [DecidableEq κ]

/-- A free key is taken, and the answer gets lost. -/
theorem lose (kept : Kept term leases tenants now) (free : ¬ leases.Taken now key) :
    Kept term (leases.take key (now + term)) tenants now where
  past := kept.past
  taken := by
    intro tenant other since holds live
    by_cases same : other = key
    · subst same
      exact absurd live (Nat.not_lt_of_le (kept.over_of_free free holds))
    · rw [take, Function.update_of_ne same]
      exact kept.taken tenant other since holds live
  apart := kept.apart

variable [DecidableEq ι]

/-- A free key is taken, and the caller is told so. -/
theorem grant (kept : Kept term leases tenants now) (free : ¬ leases.Taken now key) :
    Kept term (leases.take key (now + term)) (Function.update tenants tenant (some (key, now)))
      now := by
  have lost := kept.lose free
  have own : ∀ {other found since}, Function.update tenants tenant (some (key, now)) other =
      some (found, since) → other = tenant ∧ found = key ∧ since = now ∨
        other ≠ tenant ∧ tenants other = some (found, since) := by
    intro other found since holds
    by_cases same : other = tenant
    · subst same
      rw [Function.update_self] at holds
      cases holds
      exact .inl ⟨rfl, rfl, rfl⟩
    · rw [Function.update_of_ne same] at holds
      exact .inr ⟨same, holds⟩
  constructor
  · intro other found since holds
    rcases own holds with ⟨-, -, rfl⟩ | ⟨-, old⟩
    · exact Nat.le_refl _
    · exact kept.past other found since old
  · intro other found since holds live
    rcases own holds with ⟨-, rfl, rfl⟩ | ⟨-, old⟩
    · exact Function.update_self _ _ _
    · exact lost.taken other found since old live
  · intro left right found first second different leftHolds rightHolds
    rcases own leftHolds with ⟨rfl, rfl, rfl⟩ | ⟨-, leftOld⟩
    · rcases own rightHolds with ⟨rfl, -, -⟩ | ⟨-, rightOld⟩
      · exact absurd rfl different
      · exact .inr (kept.over_of_free free rightOld)
    · rcases own rightHolds with ⟨rfl, rfl, rfl⟩ | ⟨-, rightOld⟩
      · exact .inl (kept.over_of_free free leftOld)
      · exact kept.apart left right found first second different leftOld rightOld

/-- A tenant whose time is not over gives its key back. -/
theorem giveBack (kept : Kept term leases tenants now) (holds : tenants tenant = some (key, since))
    (live : now < since + term) :
    Kept term (leases.giveBack key) (Function.update tenants tenant none) now := by
  have left := kept.leave tenant
  refine ⟨left.past, ?_, left.apart⟩
  intro other found began otherHolds otherLive
  by_cases same : found = key
  · subst same
    by_cases own : other = tenant
    · subst own
      rw [Function.update_self] at otherHolds
      cases otherHolds
    · -- the other tenant's time would overlap with this one
      rw [Function.update_of_ne own] at otherHolds
      have early := kept.past other found began otherHolds
      have mine := kept.past tenant found since holds
      rcases kept.apart other tenant found began since own otherHolds holds with before | after
      · omega
      · omega
  · rw [Leases.giveBack, Function.update_of_ne same]
    exact left.taken other found began otherHolds otherLive

end Kept

end Leases

end Citadel
