import Citadel.Keystore.WrappingCycles

/-!
# A wrapping graph without violations

When the validation reports nothing, each key is wrapped by a key in use that stands one level
above it, so the way to a key without a wrapping key is as long as there are levels. A domain may
be wrapped by a root, which makes the way from a data key three steps long.
-/

namespace Citadel

variable {keys : List KeyMetadata} {key parent : KeyMetadata} {parentId : String} {steps : Nat}

/-- Within a number of steps, the wrapping keys of the current versions lead through keys in use
to a root or a domain that names no wrapping key. -/
inductive WrappedWithin (keys : List KeyMetadata) : Nat → KeyMetadata → Prop where
  | master {steps : Nat} {key : KeyMetadata} (top : key.keyType = .root ∨ key.keyType = .domain)
      (parentless : key.wrappingParent = none) : WrappedWithin keys steps key
  | parent {steps : Nat} {key parent : KeyMetadata} (listed : parent ∈ keys)
      (wrapped : key.wrappingParent = some parent.id.text)
      (inUse : parent.state = .active ∨ parent.state = .rotated)
      (rest : WrappedWithin keys steps parent) : WrappedWithin keys (steps + 1) key

/-- From a wrapping key there is one step less. -/
theorem WrappedWithin.of_wrapped (distinct : (keys.map KeyMetadata.id).Nodup)
    (within : WrappedWithin keys (steps + 1) key) (listed : parent ∈ keys)
    (wrapped : key.wrappingParent = some parent.id.text) : WrappedWithin keys steps parent := by
  cases within with
  | master top parentless =>
      rw [parentless] at wrapped
      cases wrapped
  | @parent _ _ other present named inUse rest =>
      have text : other.id.text = parent.id.text := Option.some.inj (named.symm.trans wrapped)
      have same : other.id = parent.id := congrArg KeyId.mk text
      rwa [← List.inj_on_of_nodup_map distinct present listed same]

/-- A wrapping key passes its checks when it is listed, of a role that wraps the key's, and in
use. -/
theorem exists_parent_of_quiet (distinct : (keys.map KeyMetadata.id).Nodup)
    (quiet : keyViolations keys key = []) (wrapped : key.wrappingParent = some parentId) :
    ∃ parent ∈ keys, parent.id.text = parentId ∧
      parent.keyType.role.canWrap key.keyType.role = true ∧
      (parent.state = .active ∨ parent.state = .rotated) := by
  simp only [keyViolations, wrapped] at quiet
  cases stored : byId keys parentId with
  | none =>
      simp only [stored] at quiet
      cases quiet
  | some parent =>
      obtain ⟨listed, named⟩ := (byId_eq_some_iff_mem distinct).mp stored
      simp only [stored, List.append_eq_nil_iff, ite_eq_left_iff, ite_eq_right_iff] at quiet
      obtain ⟨direction, inUse⟩ := quiet
      refine ⟨parent, listed, named, ?_, ?_⟩
      · by_contra wrong
        cases direction (Bool.eq_false_iff.mpr wrong)
      · by_contra wrong
        cases inUse wrong

/-- A key without a wrapping key passes its check when it is a root or a domain. -/
theorem isTop_of_quiet (quiet : keyViolations keys key = [])
    (parentless : key.wrappingParent = none) :
    key.keyType = .root ∨ key.keyType = .domain := by
  simp only [keyViolations, parentless] at quiet
  cases kind : key.keyType <;> rw [kind] at quiet
  · exact Or.inl rfl
  · exact Or.inr rfl
  all_goals cases quiet

/-- Below levels where no key names a wrapping key, every key has at most one step for each
level. -/
theorem wrappedWithin_of_quiet (distinct : (keys.map KeyMetadata.id).Nodup)
    (quiet : ∀ key ∈ keys, keyViolations keys key = []) {base : Nat}
    (top : ∀ key ∈ keys, key.keyType.role.levelsAbove ≤ base → key.wrappingParent = none)
    (listed : key ∈ keys) (level : key.keyType.role.levelsAbove ≤ base + steps) :
    WrappedWithin keys steps key := by
  induction steps generalizing key with
  | zero =>
      have parentless := top key listed level
      exact .master (isTop_of_quiet (quiet key listed) parentless) parentless
  | succ steps ih =>
      cases wrapped : key.wrappingParent with
      | none => exact .master (isTop_of_quiet (quiet key listed) wrapped) wrapped
      | some parentId =>
          obtain ⟨parent, present, rfl, direction, inUse⟩ :=
            exists_parent_of_quiet distinct (quiet key listed) wrapped
          have below := KeyRole.levelsAbove_of_canWrap direction
          exact .parent present wrapped inUse (ih present (by omega))

/-- No key wraps a root. -/
theorem parentless_of_root (distinct : (keys.map KeyMetadata.id).Nodup)
    (quiet : keyViolations keys key = []) (level : key.keyType.role.levelsAbove ≤ 0) :
    key.wrappingParent = none := by
  by_contra wrapped
  obtain ⟨parentId, wrapped⟩ := Option.ne_none_iff_exists'.mp wrapped
  obtain ⟨parent, -, -, direction, -⟩ := exists_parent_of_quiet distinct quiet wrapped
  have below := KeyRole.levelsAbove_of_canWrap direction
  omega

theorem isDomain_of_level (level : key.keyType.role.levelsAbove = 1) : key.keyType = .domain := by
  cases kind : key.keyType <;> rw [kind] at level <;> first | rfl | cases level

/-- The validation reports each cycle of the wrapping edges once and nothing else as a cycle.
When it reports nothing at all, three steps lead from any key through keys in use to a root or
a domain without a wrapping key, and two steps do if the domains name no wrapping key. -/
theorem wrapping_graph_validated (keys : List KeyMetadata)
    (distinct : (keys.map KeyMetadata.id).Nodup) :
    (∃ reported : List (List String),
      (validateWrappingGraph keys).filter (fun violation => violation.kind = .cycle) =
        reported.map cycleViolation ∧
      (reported.map fun ids : List String => (ids : Cycle String)).Nodup ∧
      ∀ cycle : Cycle String, (∃ ids ∈ reported, (ids : Cycle String) = cycle) ↔
        IsCycle (wrappingParentOf keys) cycle) ∧
    (validateWrappingGraph keys = [] → ∀ key ∈ keys, WrappedWithin keys 3 key ∧
      ((∀ domain ∈ keys, domain.keyType = .domain → domain.wrappingParent = none) →
        WrappedWithin keys 2 key)) := by
  refine ⟨cycles_reported distinct, ?_⟩
  intro valid key listed
  have quiet : ∀ key ∈ keys, keyViolations keys key = [] := by
    intro key member
    apply List.eq_nil_iff_forall_not_mem.mpr
    intro violation found
    have reported := mem_validateWrappingGraph member found
    rw [valid] at reported
    cases reported
  have roots : ∀ key ∈ keys, key.keyType.role.levelsAbove ≤ 0 → key.wrappingParent = none :=
    fun key member level => parentless_of_root distinct (quiet key member) level
  have deepest : key.keyType.role.levelsAbove ≤ 3 := by
    cases key.keyType <;> decide
  constructor
  · apply wrappedWithin_of_quiet distinct quiet roots listed
    omega
  · intro domains
    have tops : ∀ key ∈ keys, key.keyType.role.levelsAbove ≤ 1 → key.wrappingParent = none := by
      intro other member level
      rcases Nat.le_one_iff_eq_zero_or_eq_one.mp level with root | domain
      · exact roots other member root.le
      · exact domains other member (isDomain_of_level domain)
    apply wrappedWithin_of_quiet distinct quiet tops listed
    omega

/-- A whole line of keys, each wrapped by the one above it. -/
def wrappedLine : List KeyMetadata :=
  [sampleKey "root" .root .active none none,
    sampleKey "domain" .domain .active (some "root") (some "root"),
    sampleKey "kek" .keyEncrypting .active (some "domain") (some "domain"),
    sampleKey "dek" .dataEncrypting .active (some "kek") (some "kek")]

theorem wrappedLine_valid : validateWrappingGraph wrappedLine = [] := by
  have descends : Descends wrappedLine fun key => key.keyType.role.levelsAbove := by
    intro id key parentId parent stored wrapped present
    have checked : ∀ key ∈ wrappedLine, ∀ parent ∈ wrappedLine,
        key.wrappingParent = some parent.id.text →
        parent.keyType.role.levelsAbove < key.keyType.role.levelsAbove := by decide
    obtain ⟨listed, -⟩ := (byId_eq_some_iff_mem (by decide)).mp stored
    obtain ⟨parentListed, rfl⟩ := (byId_eq_some_iff_mem (by decide)).mp present
    exact checked key listed parent parentListed wrapped
  rw [validateWrappingGraph_of_descends descends]
  decide

/-- The data key of the whole line is within three steps. -/
theorem wrappedLine_within :
    WrappedWithin wrappedLine 3 (sampleKey "dek" .dataEncrypting .active (some "kek") (some "kek")) :=
  ((wrapping_graph_validated wrappedLine (by decide)).2 wrappedLine_valid _ (by decide)).1

/-- The data key of the whole line is three steps away, in a graph without violations. -/
theorem wrappedLine_three_steps :
    ¬ ∀ keys : List KeyMetadata, (keys.map KeyMetadata.id).Nodup →
      validateWrappingGraph keys = [] → ∀ key ∈ keys, WrappedWithin keys 2 key := by
  intro claimed
  have dek := claimed wrappedLine (by decide) wrappedLine_valid
    (sampleKey "dek" .dataEncrypting .active (some "kek") (some "kek")) (by decide)
  have kek : WrappedWithin wrappedLine 1
      (sampleKey "kek" .keyEncrypting .active (some "domain") (some "domain")) :=
    dek.of_wrapped (by decide) (by decide) rfl
  have domain : WrappedWithin wrappedLine 0
      (sampleKey "domain" .domain .active (some "root") (some "root")) :=
    kek.of_wrapped (by decide) (by decide) rfl
  cases domain with
  | master top parentless => cases parentless

end Citadel
