import Citadel.Keystore.Types
import Mathlib.Data.List.Nodup

/-!
# Validating the wrapping graph

`validate_wrapping_graph` looks at the parent that each key's current version names.
It reports parents that do not exist, that are of the wrong role or out of use, keys
that need a parent and have none, and cycles. The search for cycles follows the
parents from every key in turn; it ends because no identifier is on its path twice.
-/

namespace Citadel

/-- `KeyRole::label`. -/
def KeyRole.label : KeyRole → String
  | .root => "Root"
  | .domainKek => "DomainKek"
  | .kek => "Kek"
  | .dek => "Dek"
  | .hybridIdentityKey => "HybridIdentityKey"
  | .signingKey => "SigningKey"

/-- `allow_external_master`. -/
def KeyRole.allowExternalMaster : KeyRole → Bool
  | .root => true
  | .domainKek => true
  | _ => false

/-- `ViolationKind`. -/
inductive ViolationKind where
  | cycle
  | invalidDirection
  | orphanedParent
  | inactiveParent
  | invalidWrappingForRole
  deriving DecidableEq, Repr

/-- `GraphViolation`. -/
structure GraphViolation where
  kind : ViolationKind
  detail : String
  deriving DecidableEq, Repr

/-- The lookup table of the keys; the last of several with one identifier counts. -/
def byId (keys : List KeyMetadata) (id : String) : Option KeyMetadata :=
  keys.reverse.find? fun key => key.id.text = id

/-- Keys with distinct identifiers are found under their own. -/
theorem byId_eq_some_iff_mem {keys : List KeyMetadata}
    (distinct : (keys.map KeyMetadata.id).Nodup) {id : String}
    {key : KeyMetadata} : byId keys id = some key ↔ key ∈ keys ∧ key.id.text = id := by
  constructor
  · intro found
    exact ⟨List.mem_reverse.mp (List.mem_of_find?_eq_some found), by simpa using List.find?_some found⟩
  · rintro ⟨member, rfl⟩
    obtain ⟨other, found⟩ : ∃ other, byId keys key.id.text = some other := by
      rw [← Option.isSome_iff_exists, byId, List.find?_isSome]
      exact ⟨key, List.mem_reverse.mpr member, by simp⟩
    have listed := List.mem_reverse.mp (List.mem_of_find?_eq_some found)
    have named : other.id.text = key.id.text := by simpa using List.find?_some found
    have same : other.id = key.id := congrArg KeyId.mk named
    rw [found, List.inj_on_of_nodup_map distinct listed member same]

/-- The parent that the current version names. -/
def KeyMetadata.wrappingParent (key : KeyMetadata) : Option String :=
  key.currentKeyVersion.bind KeyVersion.wrappingKeyId

/-- The checks of one key against its parent. -/
def keyViolations (keys : List KeyMetadata) (key : KeyMetadata) : List GraphViolation :=
  let role := key.keyType.role
  match key.wrappingParent with
  | some parentId =>
      match byId keys parentId with
      | none =>
          [⟨.orphanedParent, s!"key '{key.name}' ({role.label}) references parent " ++
            s!"'{parentId}' which does not exist"⟩]
      | some parent =>
          let parentRole := parent.keyType.role
          (if parentRole.canWrap role = false then
            [⟨.invalidDirection, s!"key '{key.name}' ({role.label}) is wrapped by " ++
              s!"'{parent.name}' ({parentRole.label}) — invalid: {parentRole.label} cannot wrap " ++
              s!"{role.label}"⟩]
          else []) ++
          (if parent.state = .active ∨ parent.state = .rotated then []
          else
            [⟨.inactiveParent, s!"key '{key.name}' is wrapped by '{parent.name}' which is in " ++
              s!"state {parent.state.display}"⟩])
  | none =>
      if role.allowExternalMaster = false ∧ ¬ (role = .root ∨ role = .domainKek) then
        [⟨.invalidWrappingForRole, s!"key '{key.name}' ({role.label}) has no parent but its role " ++
          "requires one"⟩]
      else []

/-- The keys that are not on the path. -/
def offPath (keys : List KeyMetadata) (inPath : List String) : List KeyMetadata :=
  keys.filter fun key => key.id.text ∉ inPath

/-- A key that is put on the path is no longer off it. -/
theorem offPath_cons_lt_of_mem {keys : List KeyMetadata} {inPath : List String}
    {key : KeyMetadata} (fresh : key.id.text ∉ inPath) (member : key ∈ keys) :
    (offPath keys (key.id.text :: inPath)).length < (offPath keys inPath).length := by
  have split : offPath keys (key.id.text :: inPath) =
      (offPath keys inPath).filter fun other => other.id.text ≠ key.id.text := by
    rw [offPath, offPath, List.filter_filter]
    refine List.filter_congr fun other _ => ?_
    simp [not_or]
  rw [split, List.length_filter_lt_length_iff_exists]
  exact ⟨key, by simp [offPath, member, fresh], by simp⟩

theorem offPath_cons_le (keys : List KeyMetadata) (inPath : List String) (id : String) :
    (offPath keys (id :: inPath)).length ≤ (offPath keys inPath).length := by
  apply List.Sublist.length_le
  apply List.monotone_filter_right
  intro key off
  simp only [List.mem_cons, not_or, decide_eq_true_eq] at off ⊢
  exact off.2

theorem offPath_cons_lt {keys : List KeyMetadata} {inPath : List String} {id : String}
    {key : KeyMetadata} (fresh : id ∉ inPath) (found : byId keys id = some key) :
    (offPath keys (id :: inPath)).length < (offPath keys inPath).length := by
  have member : key ∈ keys := List.mem_reverse.mp (List.mem_of_find?_eq_some found)
  obtain rfl : key.id.text = id := by simpa using List.find?_some found
  exact offPath_cons_lt_of_mem fresh member

/-- `detect_cycle`. What it pushes on the path it takes off again before it returns, so
only the visited identifiers and the violations come back. -/
def detectCycle (keys : List KeyMetadata) (currentId : String) (path inPath visited : List String)
    (violations : List GraphViolation) : List String × List GraphViolation :=
  if onPath : currentId ∈ inPath then
    let cycle := path.dropWhile fun id => id ≠ currentId
    let joined := " → ".intercalate cycle
    (visited, violations ++ [⟨.cycle, s!"cycle detected: {joined} → {currentId}"⟩])
  else if currentId ∈ visited then (visited, violations)
  else
    match _found : byId keys currentId with
    | none => (visited, violations)
    | some key =>
        let (visited, violations) :=
          match key.wrappingParent with
          | some parentId =>
              detectCycle keys parentId (path ++ [currentId]) (currentId :: inPath) visited
                violations
          | none => (visited, violations)
        (currentId :: visited, violations)
termination_by (offPath keys inPath).length
decreasing_by exact offPath_cons_lt onPath _found

/-- `validate_wrapping_graph`. -/
def validateWrappingGraph (keys : List KeyMetadata) : List GraphViolation :=
  let searched := keys.foldl (fun (state : List String × List GraphViolation) key =>
    if key.id.text ∈ state.1 then state
    else detectCycle keys key.id.text [] [] state.1 state.2) ([], keys.flatMap (keyViolations keys))
  searched.2

variable {keys : List KeyMetadata} {rank : KeyMetadata → Nat}

/-- Along every edge from a key to its wrapping parent a rank goes down. -/
def Descends (keys : List KeyMetadata) (rank : KeyMetadata → Nat) : Prop :=
  ∀ id key parentId parent, byId keys id = some key → key.wrappingParent = some parentId →
    byId keys parentId = some parent → rank parent < rank key

/-- Every key on the path is above the current one. -/
def PathAbove (keys : List KeyMetadata) (rank : KeyMetadata → Nat) (inPath : List String)
    (currentId : String) : Prop :=
  ∀ id ∈ inPath, ∃ key, byId keys id = some key ∧
    ∀ current, byId keys currentId = some current → rank current < rank key

theorem PathAbove.parent (descends : Descends keys rank) {inPath : List String}
    {currentId parentId : String} {key : KeyMetadata} (above : PathAbove keys rank inPath currentId)
    (found : byId keys currentId = some key) (wrapped : key.wrappingParent = some parentId) :
    PathAbove keys rank (currentId :: inPath) parentId := by
  rintro id (_ | ⟨_, earlier⟩)
  · exact ⟨key, found, fun parent present => descends _ _ _ _ found wrapped present⟩
  · obtain ⟨upper, present, higher⟩ := above id earlier
    exact ⟨upper, present, fun parent parentFound =>
      Nat.lt_trans (descends _ _ _ _ found wrapped parentFound) (higher key found)⟩

/-- A search along descending edges finds no cycle. -/
theorem detectCycle_violations (descends : Descends keys rank) (currentId : String)
    (path inPath visited : List String) (violations : List GraphViolation)
    (above : PathAbove keys rank inPath currentId) :
    (detectCycle keys currentId path inPath visited violations).2 = violations := by
  fun_induction detectCycle keys currentId path inPath visited violations with
  | case1 currentId path inPath onPath cycle joined =>
      -- the current key would be above itself
      obtain ⟨key, found, higher⟩ := above currentId onPath
      exact absurd (higher key found) (Nat.lt_irrefl _)
  | case2 currentId path inPath offPath seen => rfl
  | case3 currentId path inPath offPath unseen absent => rfl
  | case4 currentId path inPath offPath unseen key found later collected searched ih =>
      cases wrapped : key.wrappingParent with
      | none =>
          rw [wrapped] at searched
          exact (congrArg Prod.snd searched).symm
      | some parentId =>
          rw [wrapped] at searched
          have quiet := ih parentId (above.parent descends found wrapped)
          exact (congrArg Prod.snd searched).symm.trans quiet

/-- Over descending edges the validation reports what the checks of the single keys
report. -/
theorem validateWrappingGraph_of_descends (descends : Descends keys rank) :
    validateWrappingGraph keys = keys.flatMap (keyViolations keys) := by
  suffices quiet : ∀ (rest : List KeyMetadata) (visited : List String)
      (violations : List GraphViolation),
      (rest.foldl (fun (state : List String × List GraphViolation) key =>
        if key.id.text ∈ state.1 then state
        else detectCycle keys key.id.text [] [] state.1 state.2) (visited, violations)).2 =
        violations from quiet keys [] _
  intro rest
  induction rest with
  | nil => intro visited violations; rfl
  | cons key rest ih =>
      intro visited violations
      rw [List.foldl_cons]
      by_cases seen : key.id.text ∈ visited
      · rw [if_pos seen]
        exact ih visited violations
      · rw [if_neg seen]
        have found := detectCycle_violations descends key.id.text [] [] visited violations nofun
        generalize detectCycle keys key.id.text [] [] visited violations = searched at found ⊢
        obtain ⟨later, collected⟩ := searched
        rw [ih later collected]
        exact found

theorem subset_detectCycle (currentId : String) (path inPath visited : List String)
    (violations : List GraphViolation) :
    violations ⊆ (detectCycle keys currentId path inPath visited violations).2 := by
  fun_induction detectCycle keys currentId path inPath visited violations with
  | case1 currentId path inPath onPath cycle => exact List.subset_append_left _ _
  | case2 currentId path inPath offPath seen => exact fun _ member => member
  | case3 currentId path inPath offPath unseen absent => exact fun _ member => member
  | case4 currentId path inPath offPath unseen key found later collected searched ih =>
      cases wrapped : key.wrappingParent with
      | none =>
          rw [wrapped] at searched
          rw [← congrArg Prod.snd searched]
          exact fun _ member => member
      | some parentId =>
          rw [wrapped] at searched
          rw [← congrArg Prod.snd searched]
          exact ih parentId

/-- What the check of one key finds is reported. -/
theorem mem_validateWrappingGraph {key : KeyMetadata} {violation : GraphViolation}
    (member : key ∈ keys) (found : violation ∈ keyViolations keys key) :
    violation ∈ validateWrappingGraph keys := by
  suffices kept : ∀ (rest : List KeyMetadata) (visited : List String)
      (violations : List GraphViolation), violation ∈ violations →
      violation ∈ (rest.foldl (fun (state : List String × List GraphViolation) key =>
        if key.id.text ∈ state.1 then state
        else detectCycle keys key.id.text [] [] state.1 state.2) (visited, violations)).2 from
    kept keys [] _ (List.mem_flatMap.mpr ⟨key, member, found⟩)
  intro rest
  induction rest with
  | nil => exact fun _ _ present => present
  | cons key rest ih =>
      intro visited violations present
      rw [List.foldl_cons]
      by_cases seen : key.id.text ∈ visited
      · rw [if_pos seen]
        exact ih visited violations present
      · rw [if_neg seen]
        exact ih _ _ (subset_detectCycle key.id.text [] [] visited violations present)

/-- A key of one version, with nothing in it but its place. -/
def sampleKey (id : String) (keyType : KeyType) (state : KeyState)
    (parentId wrappingKeyId : Option String) : KeyMetadata :=
  { id := ⟨id⟩, name := id, keyType, state, policyId := none, parentId := parentId.map KeyId.mk,
    createdAt := 0, updatedAt := 0, activatedAt := none, rotatedAt := none, revokedAt := none,
    destroyedAt := none, currentVersion := 1, usageCount := 0,
    versions := [⟨1, 0, "", .encrypted "", wrappingKeyId, wrappingKeyId.map fun _ => 1, none, none⟩] }

end Citadel
