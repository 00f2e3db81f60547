import Mathlib.Data.List.Cycle
import Mathlib.Data.Fintype.Pigeonhole
import Mathlib.Data.Set.Finite.List

/-!
# Following a partial function

Every element leads to at most one other, as a key leads to its parent. From an element the
way either ends or comes to a cycle, and two cycles with a common element are the same.
-/

namespace Citadel

variable {α : Type} {next : α → Option α}

/-- The element that is reached after a number of steps. -/
def follow (next : α → Option α) : Nat → α → Option α
  | 0, start => some start
  | steps + 1, start => (next start).bind (follow next steps)

/-- Some step onwards there is the other element. -/
def Leads (next : α → Option α) (start goal : α) : Prop :=
  ∃ steps, follow next (steps + 1) start = some goal

theorem follow_add (first second : Nat) (start : α) :
    follow next (first + second) start =
      (follow next first start).bind (follow next second) := by
  induction first generalizing start with
  | zero => simp [follow]
  | succ first ih =>
      rw [Nat.succ_add, follow, follow, Option.bind_assoc]
      congr
      ext middle
      rw [ih]

/-- The last step of a way. -/
theorem follow_succ (steps : Nat) (start : α) :
    follow next (steps + 1) start = (follow next steps start).bind next := by
  rw [follow_add]
  congr
  ext goal
  simp [follow]

/-- A way that ends stays ended. -/
theorem follow_none_of_le {start : α} {first second : Nat} (ended : follow next first start = none)
    (later : first ≤ second) : follow next second start = none := by
  obtain ⟨rest, rfl⟩ := Nat.exists_eq_add_of_le later
  rw [follow_add, ended]
  rfl

theorem Leads.trans {first second third : α} (left : Leads next first second)
    (right : Leads next second third) : Leads next first third := by
  obtain ⟨before, before_eq⟩ := left
  obtain ⟨after, after_eq⟩ := right
  refine ⟨before + (after + 1), ?_⟩
  rw [show before + (after + 1) + 1 = before + 1 + (after + 1) by omega, follow_add, before_eq]
  exact after_eq

/-- Of two elements on one way, one leads to the other. -/
theorem leads_or_leads {start first second : α} {firstSteps secondSteps : Nat}
    (firstReached : follow next firstSteps start = some first)
    (secondReached : follow next secondSteps start = some second) :
    first = second ∨ Leads next first second ∨ Leads next second first := by
  have nearer : ∀ {near far : α} {steps more : Nat}, follow next steps start = some near →
      follow next (steps + more) start = some far → near = far ∨ Leads next near far := by
    intro near far steps more nearReached farReached
    rw [follow_add, nearReached, Option.bind_some] at farReached
    cases more with
    | zero => exact .inl (Option.some.inj farReached)
    | succ more => exact .inr ⟨more, farReached⟩
  rcases Nat.le_total firstSteps secondSteps with ordered | ordered
  · obtain ⟨more, rfl⟩ := Nat.exists_eq_add_of_le ordered
    rcases nearer firstReached secondReached with same | leads
    · exact .inl same
    · exact .inr (.inl leads)
  · obtain ⟨more, rfl⟩ := Nat.exists_eq_add_of_le ordered
    rcases nearer secondReached firstReached with same | leads
    · exact .inl same.symm
    · exact .inr (.inr leads)

/-- What leads to an element leads to what that one leads to next. -/
theorem Leads.step {first second third : α} (leads : Leads next first second)
    (step : next second = some third) : Leads next first third := by
  apply leads.trans
  exact ⟨0, by rw [follow, step]; rfl⟩

/-- Two ways that meet in one step lead there from both ends. -/
theorem Leads.of_step {first second third : α} (leads : Leads next first third)
    (step : next first = some second) : second = third ∨ Leads next second third := by
  obtain ⟨steps, reached⟩ := leads
  rw [follow, step, Option.bind_some] at reached
  cases steps with
  | zero => exact .inl (Option.some.inj reached)
  | succ steps => exact .inr ⟨steps, reached⟩

/-- An element on a cycle has a way of any length. -/
theorem follow_ne_none_of_leads {start : α} (loop : Leads next start start) (steps : Nat) :
    follow next steps start ≠ none := by
  obtain ⟨length, around⟩ := loop
  have rounds : ∀ count, follow next (count * (length + 1)) start = some start := by
    intro count
    induction count with
    | zero => rw [Nat.zero_mul, follow]
    | succ count ih => rw [Nat.succ_mul, follow_add, ih, Option.bind_some, around]
  intro ended
  have further := follow_none_of_le ended (Nat.le_mul_of_pos_right steps (Nat.succ_pos length))
  rw [rounds] at further
  cases further

/-- Among finitely many elements, none of which leads back to itself, every way ends. -/
theorem exists_follow_none {members : List α}
    (inside : ∀ start goal, next start = some goal → goal ∈ members)
    (acyclic : ∀ member ∈ members, ¬ Leads next member member) (start : α) :
    ∃ steps, follow next steps start = none := by
  by_contra endless
  have present : ∀ steps, ∃ goal, follow next (steps + 1) start = some goal := by
    intro steps
    apply Option.ne_none_iff_exists'.mp
    intro ended
    exact endless ⟨_, ended⟩
  choose visited visited_eq using present
  have member : ∀ steps, visited steps ∈ members := by
    intro steps
    have last := visited_eq steps
    rw [follow_succ, Option.bind_eq_some_iff] at last
    obtain ⟨before, -, step⟩ := last
    exact inside before _ step
  have finite : Finite {goal // goal ∈ members} := members.finite_toSet
  -- an endless way in a finite list comes to one element twice
  obtain ⟨first, second, different, same⟩ := Finite.exists_ne_map_eq_of_infinite
    fun steps : Nat => (⟨visited steps, member steps⟩ : {goal // goal ∈ members})
  have loops : ∀ {first second : Nat}, first < second → visited first = visited second → False := by
    intro first second before same
    apply acyclic (visited first) (member first)
    refine ⟨second - first - 1, ?_⟩
    have whole := visited_eq second
    rw [show second + 1 = first + 1 + (second - first - 1 + 1) by omega, follow_add,
      visited_eq first, ← same] at whole
    exact whole
  have equal : visited first = visited second := congrArg Subtype.val same
  rcases Nat.lt_or_gt_of_ne different with before | after
  · exact loops before equal
  · exact loops after equal.symm

/-- A cycle of the function: each of its elements leads to the next, the last to the first. -/
structure IsCycle (next : α → Option α) (cycle : Cycle α) : Prop where
  nonempty : cycle ≠ Cycle.nil
  nodup : cycle.Nodup
  chain : cycle.Chain fun start goal => next start = some goal

/-- Ways from one element back to another are the same if they come there only at their end. -/
theorem isChain_unique {start goal : α} {left right : List α} (leftFresh : goal ∉ left)
    (rightFresh : goal ∉ right)
    (leftChain : List.IsChain (fun start goal => next start = some goal) (start :: (left ++ [goal])))
    (rightChain : List.IsChain (fun start goal => next start = some goal)
      (start :: (right ++ [goal]))) : left = right := by
  induction left generalizing start right with
  | nil =>
      cases right with
      | nil => rfl
      | cons first rest =>
          have left := (List.isChain_cons_cons.mp leftChain).1
          have right := (List.isChain_cons_cons.mp rightChain).1
          obtain rfl := Option.some.inj (left.symm.trans right)
          exact absurd List.mem_cons_self rightFresh
  | cons first rest ih =>
      cases right with
      | nil =>
          have left := (List.isChain_cons_cons.mp leftChain).1
          have right := (List.isChain_cons_cons.mp rightChain).1
          obtain rfl := Option.some.inj (left.symm.trans right)
          exact absurd List.mem_cons_self leftFresh
      | cons other others =>
          obtain ⟨left, leftRest⟩ := List.isChain_cons_cons.mp leftChain
          obtain ⟨right, rightRest⟩ := List.isChain_cons_cons.mp rightChain
          obtain rfl := Option.some.inj (left.symm.trans right)
          rw [ih (List.not_mem_of_not_mem_cons leftFresh) (List.not_mem_of_not_mem_cons rightFresh)
            leftRest rightRest]

/-- A cycle can be read from any of its elements. -/
theorem Cycle.exists_cons {cycle : Cycle α} {start : α} (member : start ∈ cycle) :
    ∃ rest : List α, cycle = (start :: rest : List α) := by
  induction cycle using Quotient.inductionOn' with
  | h items =>
      obtain ⟨front, back, rfl⟩ := List.append_of_mem (Cycle.mem_coe_iff.mp member)
      exact ⟨back ++ front, Cycle.coe_eq_coe.mpr List.isRotated_append⟩

/-- Two cycles with a common element are the same. -/
theorem IsCycle.unique {left right : Cycle α} (isLeft : IsCycle next left)
    (isRight : IsCycle next right) {shared : α} (onLeft : shared ∈ left) (onRight : shared ∈ right) :
    left = right := by
  obtain ⟨leftRest, rfl⟩ := Cycle.exists_cons onLeft
  obtain ⟨rightRest, rfl⟩ := Cycle.exists_cons onRight
  have leftNodup := Cycle.nodup_coe_iff.mp isLeft.nodup
  have rightNodup := Cycle.nodup_coe_iff.mp isRight.nodup
  rw [isChain_unique (List.nodup_cons.mp leftNodup).1 (List.nodup_cons.mp rightNodup).1
    (Cycle.chain_coe_cons _ _ _ |>.mp isLeft.chain) (Cycle.chain_coe_cons _ _ _ |>.mp isRight.chain)]

end Citadel
