import Citadel.Keystore.GraphValidation

/-!
# Keys in use below a dead ancestor

`check_no_active_children_under_revoked` walks up the parent chain of every key in use and
fails when it meets a revoked or destroyed key. A guard stops the walk after six levels. Every
level of the hierarchy stands on another one, and there are four, so on chains that keep to the
roles the guard is never reached.
-/

namespace Citadel

/-- `CheckStatus`. -/
inductive CheckStatus where
  | pass
  | warn
  | fail
  deriving DecidableEq, Repr

/-- `DoctorCheck`. -/
structure DoctorCheck where
  name : String
  description : String
  status : CheckStatus
  detail : String
  remediation : Option String
  deriving DecidableEq, Repr

namespace DoctorCheck

/-- `DoctorCheck::pass`. -/
def pass (name description detail : String) : DoctorCheck :=
  ⟨name, description, .pass, detail, none⟩

/-- `DoctorCheck::fail`. -/
def fail (name description detail remediation : String) : DoctorCheck :=
  ⟨name, description, .fail, detail, some remediation⟩

end DoctorCheck

/-- The states in which an ancestor must not be. -/
def KeyState.isDead : KeyState → Bool
  | .revoked => true
  | .destroyed => true
  | _ => false

/-- The walk up the parent chain of one key. `levels` is what the guard leaves of it. -/
def walkAncestors (keys : List KeyMetadata) (key : KeyMetadata) :
    Nat → Option KeyId → Option String
  | _, none => none
  | 0, some _ => none
  | levels + 1, some parentId =>
      match byId keys parentId.text with
      | none => none
      | some parent =>
          if parent.state.isDead then
            some (s!"'{key.name}' ({key.id.text}) is Active/Rotated but ancestor " ++
              s!"'{parent.name}' is {parent.state.display}")
          else walkAncestors keys key levels parent.parentId

/-- What the check of one key finds. -/
def revokedAncestorOf (keys : List KeyMetadata) (key : KeyMetadata) : Option String :=
  if key.state = .active ∨ key.state = .rotated then walkAncestors keys key 6 key.parentId else none

/-- `check_no_active_children_under_revoked`. -/
def checkNoActiveChildrenUnderRevoked (keys : List KeyMetadata) : DoctorCheck :=
  let violations := keys.filterMap (revokedAncestorOf keys)
  if violations.isEmpty then
    .pass "no-active-children-under-revoked" "Active keys under revoked ancestor (P064)"
      "No Active/Rotated keys have a Revoked/Destroyed ancestor"
  else
    let joined := "; ".intercalate violations
    .fail "no-active-children-under-revoked" "Active keys under revoked ancestor (P064)"
      (s!"{violations.length} key(s) are Active/Rotated but have a Revoked/Destroyed ancestor: " ++
        joined)
      ("Run `revoke_cascade()` on the revoked parent to Suspend all descendants, then " ++
        "`rewrap()` + `activate()` each under a healthy parent.")

/-! ### Ancestors -/

variable {keys : List KeyMetadata}

/-- A listed key on the parent chain of another. -/
inductive Ancestor (keys : List KeyMetadata) : KeyMetadata → KeyMetadata → Prop where
  | parent {key parent : KeyMetadata} (listed : parent ∈ keys)
      (child : key.parentId = some parent.id) : Ancestor keys key parent
  | above {key parent ancestor : KeyMetadata} (listed : parent ∈ keys)
      (child : key.parentId = some parent.id) (higher : Ancestor keys parent ancestor) :
      Ancestor keys key ancestor

/-- What the walk finds is a dead ancestor. -/
theorem exists_dead_of_walk (distinct : (keys.map KeyMetadata.id).Nodup) {key current : KeyMetadata}
    {levels : Nat} {detail : String}
    (found : walkAncestors keys key levels current.parentId = some detail) :
    ∃ ancestor, Ancestor keys current ancestor ∧ ancestor.state.isDead = true := by
  induction levels generalizing current with
  | zero => cases parent : current.parentId <;> rw [parent] at found <;> cases found
  | succ levels ih =>
      cases named : current.parentId with
      | none =>
          rw [named] at found
          cases found
      | some parentId =>
          rw [named, walkAncestors] at found
          split at found
          · cases found
          · rename_i parent stored
            obtain ⟨listed, own⟩ := (byId_eq_some_iff_mem distinct).mp stored
            have child : current.parentId = some parent.id := by
              rw [named]
              exact congrArg (some ∘ KeyId.mk) own.symm
            split at found
            · rename_i dead
              exact ⟨parent, .parent listed child, dead⟩
            · obtain ⟨ancestor, higher, dead⟩ := ih found
              exact ⟨ancestor, .above listed child higher, dead⟩

/-- How many levels there are above a role. -/
def KeyRole.levelsAbove : KeyRole → Nat
  | .root => 0
  | .domainKek => 1
  | .kek => 2
  | _ => 3

theorem KeyRole.levelsAbove_of_canWrap {parent child : KeyRole}
    (wraps : parent.canWrap child = true) : child.levelsAbove = parent.levelsAbove + 1 := by
  cases parent <;> cases child <;> first | contradiction | rfl

/-- Every parent is listed and of a role that wraps the child's. -/
def KeepsToRoles (keys : List KeyMetadata) : Prop :=
  ∀ key ∈ keys, ∀ parentId, key.parentId = some parentId →
    ∃ parent ∈ keys, parent.id = parentId ∧
      parent.keyType.role.canWrap key.keyType.role = true

/-- A walk with a level for each one above the key meets every dead ancestor. -/
theorem walk_of_dead (distinct : (keys.map KeyMetadata.id).Nodup) (keeps : KeepsToRoles keys)
    {key current ancestor : KeyMetadata} (listed : current ∈ keys)
    (higher : Ancestor keys current ancestor) (dead : ancestor.state.isDead = true) {levels : Nat}
    (enough : current.keyType.role.levelsAbove ≤ levels) :
    ∃ detail, walkAncestors keys key levels current.parentId = some detail := by
  have climbs : ∀ {child parent : KeyMetadata}, child ∈ keys → parent ∈ keys →
      child.parentId = some parent.id →
      child.keyType.role.levelsAbove = parent.keyType.role.levelsAbove + 1 := by
    intro child parent childListed parentListed named
    obtain ⟨other, present, same, wraps⟩ := keeps child childListed parent.id named
    obtain rfl : other = parent := List.inj_on_of_nodup_map distinct present parentListed same
    exact KeyRole.levelsAbove_of_canWrap wraps
  induction higher generalizing levels with
  | @parent current parent present child =>
      have height := climbs listed present child
      obtain ⟨rest, rfl⟩ : ∃ rest, levels = rest + 1 := ⟨levels - 1, by omega⟩
      rw [child, walkAncestors, (byId_eq_some_iff_mem distinct).mpr ⟨present, rfl⟩]
      exact ⟨_, if_pos dead⟩
  | @above current parent ancestor present child higher ih =>
      have height := climbs listed present child
      obtain ⟨rest, rfl⟩ : ∃ rest, levels = rest + 1 := ⟨levels - 1, by omega⟩
      rw [child, walkAncestors, (byId_eq_some_iff_mem distinct).mpr ⟨present, rfl⟩]
      by_cases sooner : parent.state.isDead = true
      · exact ⟨_, if_pos sooner⟩
      · have below : parent.keyType.role.levelsAbove ≤ rest := by omega
        obtain ⟨detail, found⟩ := ih present dead below
        exact ⟨detail, (if_neg sooner).trans found⟩

/-- The check fails when it found something. -/
theorem check_fails_iff : (checkNoActiveChildrenUnderRevoked keys).status = .fail ↔
    ∃ key ∈ keys, ∃ detail, revokedAncestorOf keys key = some detail := by
  have empty : (keys.filterMap (revokedAncestorOf keys)).isEmpty = true ↔
      ∀ key ∈ keys, revokedAncestorOf keys key = none := by
    rw [List.isEmpty_iff, List.filterMap_eq_nil_iff]
  unfold checkNoActiveChildrenUnderRevoked
  constructor
  · intro failed
    by_contra quiet
    rw [if_pos (empty.mpr ?_)] at failed
    · cases failed
    · intro key member
      by_contra found
      obtain ⟨detail, found⟩ := Option.ne_none_iff_exists'.mp found
      exact quiet ⟨key, member, detail, found⟩
  · rintro ⟨key, member, detail, found⟩
    rw [if_neg]
    · rfl
    · rw [empty]
      intro quiet
      rw [quiet key member] at found
      cases found

/-- Over keys that keep to the roles, the check fails exactly when a key in use has a revoked
or destroyed key anywhere above it. -/
theorem active_under_revoked_iff (keys : List KeyMetadata)
    (distinct : (keys.map KeyMetadata.id).Nodup)
    (placed : ∀ key ∈ keys, ∀ parentId, key.parentId = some parentId →
      ∃ parent ∈ keys, parent.id = parentId ∧
        parent.keyType.role.canWrap key.keyType.role = true) :
    (checkNoActiveChildrenUnderRevoked keys).status = .fail ↔
      ∃ key ∈ keys, (key.state = .active ∨ key.state = .rotated) ∧
        ∃ ancestor, Ancestor keys key ancestor ∧
          (ancestor.state = .revoked ∨ ancestor.state = .destroyed) := by
  have dead_iff : ∀ state : KeyState,
      state.isDead = true ↔ state = .revoked ∨ state = .destroyed := by
    intro state
    cases state <;> decide
  rw [check_fails_iff]
  constructor
  · rintro ⟨key, member, detail, found⟩
    unfold revokedAncestorOf at found
    split at found
    · rename_i used
      obtain ⟨ancestor, higher, dead⟩ := exists_dead_of_walk distinct found
      exact ⟨key, member, used, ancestor, higher, (dead_iff _).mp dead⟩
    · cases found
  · rintro ⟨key, member, used, ancestor, higher, dead⟩
    have short : key.keyType.role.levelsAbove ≤ 6 := by
      cases key.keyType <;> decide
    obtain ⟨detail, found⟩ : ∃ detail, walkAncestors keys key 6 key.parentId = some detail :=
      walk_of_dead distinct placed member higher ((dead_iff _).mpr dead) short
    refine ⟨key, member, detail, ?_⟩
    rw [revokedAncestorOf, if_pos used, found]

/-- A data key in use, a suspended key above it, and a revoked root at the top. -/
def splitLine : List KeyMetadata :=
  [sampleKey "root" .root .revoked none none,
    sampleKey "domain" .domain .rotated (some "root") none,
    sampleKey "kek" .keyEncrypting .suspended (some "domain") (some "domain"),
    sampleKey "dek" .dataEncrypting .active (some "kek") (some "kek")]

/-- The check finds the root from the bottom of the line. -/
theorem splitLine_fails : (checkNoActiveChildrenUnderRevoked splitLine).status = .fail := by
  apply (active_under_revoked_iff splitLine (by decide) (by decide)).mpr
  have domain : Ancestor splitLine (sampleKey "domain" .domain .rotated (some "root") none)
      (sampleKey "root" .root .revoked none none) := .parent (by decide) rfl
  have kek : Ancestor splitLine
      (sampleKey "kek" .keyEncrypting .suspended (some "domain") (some "domain"))
      (sampleKey "root" .root .revoked none none) := .above (by decide) rfl domain
  exact ⟨sampleKey "dek" .dataEncrypting .active (some "kek") (some "kek"), by decide, Or.inl rfl,
    _, .above (by decide) rfl kek, Or.inl rfl⟩

end Citadel
