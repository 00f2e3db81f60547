import Mathlib.Data.List.Basic
import Mathlib.Data.List.Induction

/-!
# Chains of entries linked by digests

Every entry carries the digest of its predecessor, the first one a fixed start. A chain
is determined by the digest of its last entry as long as no two entries collide.
-/

namespace Citadel.HashChain

variable {α δ : Type} (digest link : α → δ)

/-- Every entry links to the one before it, the first one to the start. -/
def Linked : δ → List α → Prop
  | _, [] => True
  | start, entry :: rest => link entry = start ∧ Linked (digest entry) rest

/-- The digest that the next entry has to link to. -/
def tip (start : δ) (entries : List α) : δ :=
  entries.foldl (fun _ entry => digest entry) start

variable {digest link} {start : δ} {entries others : List α} {entry : α}

@[simp] theorem tip_nil : tip digest start [] = start := rfl

@[simp] theorem tip_cons : tip digest start (entry :: entries) = tip digest (digest entry) entries :=
  rfl

/-- The tip is the digest of the last entry. -/
@[simp] theorem tip_snoc : tip digest start (entries ++ [entry]) = digest entry := by
  simp [tip]

theorem linked_cons :
    Linked digest link start (entry :: entries) ↔
      link entry = start ∧ Linked digest link (digest entry) entries := Iff.rfl

/-- Two stretches are linked when each is, the second from the tip of the first. -/
theorem linked_append :
    Linked digest link start (entries ++ others) ↔
      Linked digest link start entries ∧ Linked digest link (tip digest start entries) others := by
  induction entries generalizing start with
  | nil => simp [Linked]
  | cons entry entries ih => simp [Linked, ih, and_assoc]

/-- One more entry is linked when it has the tip. -/
theorem linked_snoc :
    Linked digest link start (entries ++ [entry]) ↔
      Linked digest link start entries ∧ link entry = tip digest start entries := by
  simp [linked_append, Linked]

/-- Two chains with the same last digest are the same, unless two entries collide or one
collides with the start. -/
theorem eq_of_tip_eq (first : Linked digest link start entries)
    (second : Linked digest link start others)
    (apart : ∀ left ∈ entries, ∀ right ∈ others, digest left = digest right → left = right)
    (fresh : ∀ left ∈ entries, digest left ≠ start) (fresh' : ∀ right ∈ others, digest right ≠ start)
    (same : tip digest start entries = tip digest start others) : entries = others := by
  induction entries using List.reverseRecOn generalizing others with
  | nil =>
      rcases List.eq_nil_or_concat others with rfl | ⟨before, last, rfl⟩
      · rfl
      · rw [List.concat_eq_append, tip_snoc, tip_nil] at same
        exact absurd same.symm (fresh' last (by simp))
  | append_singleton entries entry ih =>
      rcases List.eq_nil_or_concat others with rfl | ⟨before, last, rfl⟩
      · rw [tip_snoc, tip_nil] at same
        exact absurd same (fresh entry (by simp))
      · rw [List.concat_eq_append] at second apart fresh' same ⊢
        rw [tip_snoc, tip_snoc] at same
        obtain rfl := apart entry (by simp) last (by simp) same
        obtain ⟨firstLinked, firstLink⟩ := linked_snoc.mp first
        obtain ⟨secondLinked, secondLink⟩ := linked_snoc.mp second
        congr 1
        apply ih firstLinked secondLinked
        · intro left member right member'
          exact apart left (List.mem_append_left _ member) right (List.mem_append_left _ member')
        · intro left member
          exact fresh left (List.mem_append_left _ member)
        · intro right member
          exact fresh' right (List.mem_append_left _ member)
        · rw [← firstLink, secondLink]

end Citadel.HashChain
