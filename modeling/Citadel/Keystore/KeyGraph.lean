import Citadel.Data.Following
import Citadel.Keystore.GraphValidation
import Citadel.Keystore.Migration

/-!
# The forest of the keys

`KeyGraph::build` starts at the keys that have no listed parent and hangs every key below its
parent. A key that is met again below itself becomes a marked leaf. But no way down from a
root ever comes back to a key that it has passed, so nothing is ever marked: the keys on a
cycle of parents, and those below one, are below no root and are left out.
-/

namespace Citadel

/-- `GraphNode`. -/
structure GraphNode where
  id : KeyId
  name : String
  keyType : String
  state : KeyState
  currentVersion : Nat
  versionCount : Nat
  wrappingSummary : String
  children : List GraphNode

instance : Inhabited GraphNode := ⟨⟨⟨""⟩, "", "", .pending, 0, 0, "", []⟩⟩

/-- `KeyGraph`. -/
structure KeyGraph where
  roots : List GraphNode
  totalKeys : Nat

/-- The first bytes of a text (`&text[..limit.min(len)]`). A cut inside a character panics. -/
def cutText : Nat → List Char → Option (List Char)
  | _, [] => some []
  | 0, _ :: _ => some []
  | limit + 1, char :: rest =>
      if char.utf8Size ≤ limit + 1 then
        (cutText (limit + 1 - char.utf8Size) rest).map (List.cons char)
      else none

/-- `WrappingMode::summary`, also of identifiers that are not hexadecimal; `none` is a panic. -/
def WrappingMode.shortSummary : WrappingMode → Option String
  | .externalMaster => some "external-master-key"
  | .wrappedByKey parentKeyId parentVersion algorithm => do
      let short ← cutText 8 parentKeyId.toList
      some s!"key:{String.ofList short}@v{parentVersion}({algorithm.display})"
  | .hsmBacked provider keyRef => some s!"hsm:{provider}/{keyRef}"

/-- The wrapping of the current version in words. -/
def wrappingSummary (record : KeyMetadata) : Option String :=
  match record.currentKeyVersion with
  | none => some "unknown"
  | some version => version.effectiveWrappingMode.shortSummary

/-- The listed keys whose parent is the given one. -/
def childrenOf (values : List KeyMetadata) (record : KeyMetadata) :
    List {key // key ∈ values} :=
  values.attach.filter fun key => key.1.parentId = some record.id

/-- `build_node`. `values` are the values of the table in the order in which it yields them.
What a call adds to the set of seen keys it takes out again before it returns. -/
def buildNode (values : List KeyMetadata) (record : KeyMetadata) (seen : List String) :
    Option GraphNode :=
  if _repeated : record.id.text ∈ seen then
    some ⟨record.id, s!"{record.name} (CYCLE DETECTED)", record.keyType.display, record.state,
      record.currentVersion, record.versions.length, "CYCLE", []⟩
  else do
    let summary ← wrappingSummary record
    let children ← (childrenOf values record).mapM fun key =>
      buildNode values key.1 (record.id.text :: seen)
    some ⟨record.id, record.name, record.keyType.display, record.state, record.currentVersion,
      record.versions.length, summary, children⟩
termination_by 2 * (offPath values seen).length + if record ∈ values then 0 else 1
decreasing_by
  have below : (if key.1 ∈ values then 0 else 1) = 0 := if_pos key.2
  by_cases listed : record ∈ values
  · have fewer := offPath_cons_lt_of_mem _repeated listed
    rw [below]
    omega
  · have noMore := offPath_cons_le values seen record.id.text
    rw [below, if_neg listed]
    omega

/-- A key whose parent is not in the list. -/
def isRoot (keys : List KeyMetadata) (record : KeyMetadata) : Bool :=
  match record.parentId with
  | none => true
  | some parentId => (byId keys parentId.text).isNone

/-- `KeyGraph::build`. -/
def KeyGraph.build (keys values : List KeyMetadata) : Option KeyGraph := do
  let roots ← (keys.filter (isRoot keys)).mapM fun key => buildNode values key []
  some ⟨roots, keys.length⟩

mutual

/-- A node and all those below it. -/
def GraphNode.nodes : GraphNode → List GraphNode
  | ⟨id, name, keyType, state, currentVersion, versionCount, wrappingSummary, children⟩ =>
      ⟨id, name, keyType, state, currentVersion, versionCount, wrappingSummary, children⟩ ::
        forestNodes children

/-- All nodes of some trees. -/
def forestNodes : List GraphNode → List GraphNode
  | [] => []
  | node :: rest => node.nodes ++ forestNodes rest

end

/-- The leaf that stands for a key that was met again. -/
def GraphNode.isMark (node : GraphNode) : Prop := node.wrappingSummary = "CYCLE"

/-- Every key is in the forest, and only once unless it was met again. -/
def KeyGraph.Complete (graph : KeyGraph) (keys : List KeyMetadata) : Prop :=
  ∀ key ∈ keys, (∃ node ∈ forestNodes graph.roots, node.id = key.id) ∧
    (((forestNodes graph.roots).map GraphNode.id).count key.id = 1 ∨
      ∃ node ∈ forestNodes graph.roots, node.id = key.id ∧ node.isMark)

/-- The listed parent of a key. -/
def parentAmong (keys : List KeyMetadata) (key : KeyMetadata) : Option KeyMetadata :=
  key.parentId.bind fun parentId => byId keys parentId.text

/-- A list of results exists when each of them does. -/
theorem mapM_eq_some_iff {α β : Type} [Inhabited β] {f : α → Option β} {items : List α}
    {results : List β} : items.mapM f = some results ↔
      (∀ item ∈ items, (f item).isSome = true) ∧
        results = items.map fun item => (f item).getD default := by
  induction items generalizing results with
  | nil => simp
  | cons item rest ih =>
      cases first : f item with
      | none => simp [first]
      | some result =>
          simp only [List.mapM_cons, first, Option.bind_eq_bind, Option.bind_some,
            Option.bind_eq_some_iff, ih, List.forall_mem_cons, Option.isSome_some, true_and,
            List.map_cons, Option.getD_some]
          constructor
          · rintro ⟨_, ⟨found, rfl⟩, equal⟩
            exact ⟨found, (Option.some.inj equal).symm⟩
          · rintro ⟨found, rfl⟩
            exact ⟨_, ⟨found, rfl⟩, rfl⟩

/-- Results that exist one by one exist together. -/
theorem mapM_of_forall {α β : Type} [Inhabited β] {f : α → Option β} {items : List α}
    {holds : α → β → Prop} (found : ∀ item ∈ items, ∃ result, f item = some result ∧
      holds item result) : ∃ results : α → β, items.mapM f = some (items.map results) ∧
        ∀ item ∈ items, holds item (results item) := by
  refine ⟨fun item => (f item).getD default, mapM_eq_some_iff.mpr ⟨?_, rfl⟩, ?_⟩
  · intro item member
    obtain ⟨result, same, -⟩ := found item member
    rw [same]
    rfl
  · intro item member
    obtain ⟨result, same, ok⟩ := found item member
    simpa [same] using ok

theorem forestNodes_eq_flatMap (trees : List GraphNode) :
    forestNodes trees = trees.flatMap GraphNode.nodes := by
  induction trees with
  | nil => rfl
  | cons tree rest ih => rw [forestNodes, ih, List.flatMap_cons]

section Parents

variable {keys : List KeyMetadata} {record : KeyMetadata}

theorem parentAmong_eq_some_iff (distinct : (keys.map KeyMetadata.id).Nodup)
    {key parent : KeyMetadata} :
    parentAmong keys key = some parent ↔ parent ∈ keys ∧ key.parentId = some parent.id := by
  rw [parentAmong, Option.bind_eq_some_iff]
  constructor
  · rintro ⟨parentId, child, found⟩
    obtain ⟨listed, own⟩ := (byId_eq_some_iff_mem distinct).mp found
    rw [child]
    exact ⟨listed, congrArg (some ∘ KeyId.mk) own.symm⟩
  · rintro ⟨listed, child⟩
    exact ⟨parent.id, child, (byId_eq_some_iff_mem distinct).mpr ⟨listed, rfl⟩⟩

/-- The children of a listed key are the keys whose parent it is. -/
theorem mem_childrenOf (distinct : (keys.map KeyMetadata.id).Nodup) (listed : record ∈ keys)
    {key : {key // key ∈ keys}} :
    key ∈ childrenOf keys record ↔ parentAmong keys key.1 = some record := by
  rw [parentAmong_eq_some_iff distinct, childrenOf, List.mem_filter]
  simp [listed]

/-- The keys below a listed one, itself included. -/
def IsUnder (keys : List KeyMetadata) (record key : KeyMetadata) : Prop :=
  ∃ steps, follow (parentAmong keys) steps key = some record

theorem IsUnder.self : IsUnder keys record record := ⟨0, rfl⟩

/-- A key below another is that one or below one of its children. -/
theorem isUnder_iff (distinct : (keys.map KeyMetadata.id).Nodup) {key : KeyMetadata}
    (member : key ∈ keys) :
    IsUnder keys record key ↔ key = record ∨
      ∃ child ∈ keys, parentAmong keys child = some record ∧ IsUnder keys child key := by
  constructor
  · rintro ⟨steps, reached⟩
    cases steps with
    | zero => exact Or.inl (Option.some.inj reached)
    | succ steps =>
        rw [follow_succ, Option.bind_eq_some_iff] at reached
        obtain ⟨child, before, last⟩ := reached
        refine Or.inr ⟨child, ?_, last, steps, before⟩
        cases steps with
        | zero =>
            obtain rfl := Option.some.inj before
            exact member
        | succ steps =>
            rw [follow_succ, Option.bind_eq_some_iff] at before
            obtain ⟨middle, -, step⟩ := before
            exact ((parentAmong_eq_some_iff distinct).mp step).1
  · rintro (rfl | ⟨child, -, last, steps, before⟩)
    · exact IsUnder.self
    · refine ⟨steps + 1, ?_⟩
      rw [follow_succ, before]
      exact last

/-- A child leads to its parent and to whatever that leads to. -/
theorem leads_of_parent {child ancestor : KeyMetadata}
    (parent : parentAmong keys child = some record)
    (higher : ancestor = record ∨ Leads (parentAmong keys) record ancestor) :
    Leads (parentAmong keys) child ancestor := by
  have first : Leads (parentAmong keys) child record := ⟨0, by rw [follow, parent]; rfl⟩
  rcases higher with rfl | further
  · exact first
  · exact first.trans further

/-- What a call has seen lies above its key. -/
def SeenAbove (keys : List KeyMetadata) (record : KeyMetadata) (seen : List String) : Prop :=
  ∀ id ∈ seen, ∃ ancestor ∈ keys, ancestor.id.text = id ∧
    Leads (parentAmong keys) record ancestor

theorem SeenAbove.nil (record : KeyMetadata) : SeenAbove keys record [] := by
  intro id member
  cases member

theorem SeenAbove.child {seen : List String} (above : SeenAbove keys record seen)
    (listed : record ∈ keys) {child : KeyMetadata} (parent : parentAmong keys child = some record) :
    SeenAbove keys child (record.id.text :: seen) := by
  rintro id (_ | ⟨_, earlier⟩)
  · exact ⟨record, listed, rfl, leads_of_parent parent (Or.inl rfl)⟩
  · obtain ⟨ancestor, present, named, higher⟩ := above id earlier
    exact ⟨ancestor, present, named, leads_of_parent parent (Or.inr higher)⟩

/-- A key that was seen before is above itself. -/
theorem SeenAbove.loop (distinct : (keys.map KeyMetadata.id).Nodup) {seen : List String}
    (above : SeenAbove keys record seen) (listed : record ∈ keys)
    (repeated : record.id.text ∈ seen) : Leads (parentAmong keys) record record := by
  obtain ⟨ancestor, present, named, higher⟩ := above _ repeated
  obtain rfl : ancestor = record :=
    List.inj_on_of_nodup_map distinct present listed (congrArg KeyId.mk named)
  exact higher

end Parents

section Trees

variable {keys : List KeyMetadata} (distinct : (keys.map KeyMetadata.id).Nodup)

include distinct

/-- The nodes of a tree are keys below its top, and a key without a summary of its wrapping
is in it only as a mark. -/
theorem key_of_buildNode {record : KeyMetadata} {seen : List String} {tree node : GraphNode}
    (listed : record ∈ keys) (above : SeenAbove keys record seen)
    (built : buildNode keys record seen = some tree) (member : node ∈ tree.nodes) :
    ∃ key ∈ keys, node.id = key.id ∧ IsUnder keys record key ∧
      ((wrappingSummary key).isSome = true ∨ Leads (parentAmong keys) key key) := by
  fun_induction buildNode keys record seen generalizing tree with
  | case1 record seen repeated =>
      cases built
      obtain rfl := List.mem_singleton.mp member
      exact ⟨record, listed, rfl, .self, Or.inr (above.loop distinct listed repeated)⟩
  | case2 record seen fresh ih =>
      simp only [Option.bind_eq_bind, Option.bind_eq_some_iff] at built
      obtain ⟨summary, summarized, children, searched, built⟩ := built
      cases built
      rcases List.mem_cons.mp member with rfl | deeper
      · exact ⟨record, listed, rfl, .self, Or.inl (by rw [summarized]; rfl)⟩
      · rw [forestNodes_eq_flatMap, List.mem_flatMap] at deeper
        obtain ⟨child, present, inside⟩ := deeper
        obtain ⟨found, rfl⟩ := mapM_eq_some_iff.mp searched
        obtain ⟨key, isChild, rfl⟩ := List.mem_map.mp present
        obtain ⟨child, childBuilt⟩ := Option.isSome_iff_exists.mp (found key isChild)
        rw [childBuilt] at inside
        have parent := (mem_childrenOf distinct listed).mp isChild
        obtain ⟨other, otherListed, same, below, shown⟩ :=
          ih key key.2 (above.child listed parent) childBuilt inside
        exact ⟨other, otherListed, same,
          (isUnder_iff distinct otherListed).mpr (Or.inr ⟨key, key.2, parent, below⟩), shown⟩

/-- Keys of which none is above itself, each with a summary of its wrapping. -/
structure Buildable (keys : List KeyMetadata) : Prop where
  acyclic : ∀ key ∈ keys, ¬ Leads (parentAmong keys) key key
  summarized : ∀ key ∈ keys, (wrappingSummary key).isSome = true

omit distinct in
/-- No key is below two siblings. -/
theorem Buildable.siblings_apart (buildable : Buildable keys)
    {record first second key : KeyMetadata} (listed : record ∈ keys)
    (firstChild : parentAmong keys first = some record)
    (secondChild : parentAmong keys second = some record) (belowFirst : IsUnder keys first key)
    (belowSecond : IsUnder keys second key) : first = second := by
  -- a sibling that led to the other one would make their parent lead to itself
  have apart : ∀ {near far : KeyMetadata}, parentAmong keys near = some record →
      parentAmong keys far = some record → ¬ Leads (parentAmong keys) near far := by
    intro near far nearChild farChild leads
    rcases leads.of_step nearChild with rfl | further
    · exact buildable.acyclic record listed ⟨0, by rw [follow, farChild]; rfl⟩
    · exact buildable.acyclic record listed (further.step farChild)
  obtain ⟨firstSteps, firstReached⟩ := belowFirst
  obtain ⟨secondSteps, secondReached⟩ := belowSecond
  rcases leads_or_leads firstReached secondReached with same | leads | leads
  · exact same
  · exact absurd leads (apart firstChild secondChild)
  · exact absurd leads (apart secondChild firstChild)

/-- A tree that holds the keys below its top, each of them once. -/
structure HoldsBelow (keys : List KeyMetadata) (record : KeyMetadata) (tree : GraphNode) : Prop where
  nodup : (tree.nodes.map GraphNode.id).Nodup
  mem_iff : ∀ id, id ∈ tree.nodes.map GraphNode.id ↔
    ∃ key ∈ keys, key.id = id ∧ IsUnder keys record key

/-- Trees over disjoint parts of the keys make a forest without repetitions. -/
theorem nodup_forest {β : Type} {tops : List β} {record : β → KeyMetadata} {tree : β → GraphNode}
    (different : tops.Nodup) (holds : ∀ top ∈ tops, HoldsBelow keys (record top) (tree top))
    (apart : ∀ first ∈ tops, ∀ second ∈ tops, ∀ key ∈ keys, IsUnder keys (record first) key →
      IsUnder keys (record second) key → first = second) :
    ((forestNodes (tops.map tree)).map GraphNode.id).Nodup := by
  rw [forestNodes_eq_flatMap, List.flatMap_map, List.map_flatMap, List.nodup_flatMap]
  refine ⟨fun top member => (holds top member).nodup, ?_⟩
  apply different.pairwise_of_forall_ne
  intro first firstMember second secondMember unequal id inFirst inSecond
  obtain ⟨key, listed, named, belowFirst⟩ := ((holds first firstMember).mem_iff id).mp inFirst
  obtain ⟨other, otherListed, otherNamed, belowSecond⟩ :=
    ((holds second secondMember).mem_iff id).mp inSecond
  obtain rfl : other = key :=
    List.inj_on_of_nodup_map distinct otherListed listed (otherNamed.trans named.symm)
  exact unequal (apart first firstMember second secondMember other listed belowFirst belowSecond)

omit distinct in
theorem mem_forest_iff {β : Type} {tops : List β} {record : β → KeyMetadata} {tree : β → GraphNode}
    (holds : ∀ top ∈ tops, HoldsBelow keys (record top) (tree top)) {id : KeyId} :
    id ∈ (forestNodes (tops.map tree)).map GraphNode.id ↔
      ∃ top ∈ tops, ∃ key ∈ keys, key.id = id ∧ IsUnder keys (record top) key := by
  rw [forestNodes_eq_flatMap, List.flatMap_map, List.map_flatMap, List.mem_flatMap]
  constructor
  · rintro ⟨top, member, inside⟩
    exact ⟨top, member, ((holds top member).mem_iff id).mp inside⟩
  · rintro ⟨top, member, inside⟩
    exact ⟨top, member, ((holds top member).mem_iff id).mpr inside⟩

/-- Without cycles a tree is built from all keys below its top. -/
theorem buildNode_holds (buildable : Buildable keys) {record : KeyMetadata} {seen : List String}
    (listed : record ∈ keys) (above : SeenAbove keys record seen) :
    ∃ tree, buildNode keys record seen = some tree ∧ HoldsBelow keys record tree := by
  fun_induction buildNode keys record seen with
  | case1 record seen repeated =>
      exact absurd (above.loop distinct listed repeated) (buildable.acyclic record listed)
  | case2 record seen fresh ih =>
      obtain ⟨summary, summarized⟩ :=
        Option.isSome_iff_exists.mp (buildable.summarized record listed)
      have parent : ∀ key ∈ childrenOf keys record, parentAmong keys key.1 = some record :=
        fun key member => (mem_childrenOf distinct listed).mp member
      have grown : ∀ key ∈ childrenOf keys record,
          ∃ tree, buildNode keys key.1 (record.id.text :: seen) = some tree ∧
            HoldsBelow keys key.1 tree := fun key member =>
        ih key key.2 (above.child listed (parent key member))
      obtain ⟨trees, searched, holds⟩ := mapM_of_forall grown
      rw [summarized, searched]
      refine ⟨_, rfl, ?_⟩
      have inside : ∀ id, id ∈ (forestNodes ((childrenOf keys record).map trees)).map GraphNode.id ↔
          ∃ child ∈ keys, parentAmong keys child = some record ∧
            ∃ key ∈ keys, key.id = id ∧ IsUnder keys child key := by
        intro id
        rw [mem_forest_iff holds]
        constructor
        · rintro ⟨child, member, key, present, named, below⟩
          exact ⟨child, child.2, parent child member, key, present, named, below⟩
        · rintro ⟨child, present, isChild, rest⟩
          exact ⟨⟨child, present⟩, (mem_childrenOf distinct listed).mpr isChild, rest⟩
      constructor
      · rw [GraphNode.nodes, List.map_cons, List.nodup_cons]
        constructor
        · rw [inside]
          rintro ⟨child, -, isChild, key, present, named, steps, reached⟩
          obtain rfl : key = record := List.inj_on_of_nodup_map distinct present listed named
          refine buildable.acyclic key listed ⟨steps, ?_⟩
          rw [follow_succ, reached]
          exact isChild
        · apply nodup_forest distinct ?_ holds
          · intro first firstMember second secondMember key present belowFirst belowSecond
            apply Subtype.ext
            exact buildable.siblings_apart listed (parent first firstMember)
              (parent second secondMember) belowFirst belowSecond
          · exact ((List.nodup_attach.mpr distinct.of_map)).filter _
      · intro id
        rw [GraphNode.nodes, List.map_cons, List.mem_cons, inside]
        constructor
        · rintro (rfl | ⟨child, present, isChild, key, member, named, below⟩)
          · exact ⟨record, listed, rfl, .self⟩
          · exact ⟨key, member, named,
              (isUnder_iff distinct member).mpr (Or.inr ⟨child, present, isChild, below⟩)⟩
        · rintro ⟨key, member, rfl, below⟩
          rcases (isUnder_iff distinct member).mp below with rfl | ⟨child, present, isChild, deeper⟩
          · exact Or.inl rfl
          · exact Or.inr ⟨child, present, isChild, key, member, rfl, deeper⟩

end Trees

section Forest

variable {keys values : List KeyMetadata}

/-- The order in which the table yields its keys does not decide which parent is found. -/
theorem parentAmong_of_perm (distinct : (keys.map KeyMetadata.id).Nodup) (all : values.Perm keys) :
    parentAmong values = parentAmong keys := by
  have distinctValues : (values.map KeyMetadata.id).Nodup := (all.map _).nodup_iff.mpr distinct
  ext key parent
  rw [parentAmong_eq_some_iff distinctValues, parentAmong_eq_some_iff distinct, all.mem_iff]

theorem isRoot_iff (key : KeyMetadata) :
    isRoot keys key = true ↔ parentAmong keys key = none := by
  unfold isRoot parentAmong
  cases key.parentId with
  | none => simp
  | some parentId => simp

/-- Nothing is above a root. -/
theorem not_leads_of_isRoot {key other : KeyMetadata} (root : isRoot keys key = true) :
    ¬ Leads (parentAmong keys) key other := by
  rintro ⟨steps, reached⟩
  rw [follow, (isRoot_iff key).mp root] at reached
  cases reached

/-- No key is below two roots. -/
theorem under_one_root {first second key : KeyMetadata} (firstRoot : isRoot keys first = true)
    (secondRoot : isRoot keys second = true) (belowFirst : IsUnder keys first key)
    (belowSecond : IsUnder keys second key) : first = second := by
  obtain ⟨firstSteps, firstReached⟩ := belowFirst
  obtain ⟨secondSteps, secondReached⟩ := belowSecond
  rcases leads_or_leads firstReached secondReached with same | leads | leads
  · exact same
  · exact absurd leads (not_leads_of_isRoot firstRoot)
  · exact absurd leads (not_leads_of_isRoot secondRoot)

/-- Without cycles every key is below a root. -/
theorem Buildable.exists_root (buildable : Buildable keys)
    (distinct : (keys.map KeyMetadata.id).Nodup) {key : KeyMetadata} (listed : key ∈ keys) :
    ∃ root ∈ keys, isRoot keys root = true ∧ IsUnder keys root key := by
  have inside : ∀ child parent, parentAmong keys child = some parent → parent ∈ keys :=
    fun child parent found => ((parentAmong_eq_some_iff distinct).mp found).1
  obtain ⟨steps, ended⟩ := exists_follow_none inside buildable.acyclic key
  induction steps generalizing key with
  | zero => cases ended
  | succ steps ih =>
      cases parent : parentAmong keys key with
      | none => exact ⟨key, listed, (isRoot_iff key).mpr parent, .self⟩
      | some above =>
          rw [follow, parent, Option.bind_some] at ended
          obtain ⟨root, rootListed, isRoot, climbs, reached⟩ := ih (inside _ _ parent) ended
          refine ⟨root, rootListed, isRoot, climbs + 1, ?_⟩
          rw [follow, parent, Option.bind_some]
          exact reached

/-- A complete forest has no cycle in it, and every summary was written. -/
theorem buildable_of_complete (distinct : (keys.map KeyMetadata.id).Nodup)
    (all : values.Perm keys) {graph : KeyGraph} (built : KeyGraph.build keys values = some graph)
    (complete : graph.Complete keys) : Buildable keys := by
  have distinctValues : (values.map KeyMetadata.id).Nodup := (all.map _).nodup_iff.mpr distinct
  have sameParents := parentAmong_of_perm distinct all
  simp only [KeyGraph.build, Option.bind_eq_bind, Option.bind_eq_some_iff] at built
  obtain ⟨roots, searched, built⟩ := built
  cases built
  obtain ⟨found, rfl⟩ := mapM_eq_some_iff.mp searched
  -- every key is a node below some root
  have located : ∀ key ∈ keys, ∃ root, isRoot keys root = true ∧ IsUnder keys root key ∧
      ((wrappingSummary key).isSome = true ∨ Leads (parentAmong keys) key key) := by
    intro key listed
    obtain ⟨⟨node, present, named⟩, -⟩ := complete key listed
    rw [forestNodes_eq_flatMap, List.mem_flatMap] at present
    obtain ⟨tree, isTree, inside⟩ := present
    obtain ⟨root, rootMember, rfl⟩ := List.mem_map.mp isTree
    obtain ⟨tree, treeBuilt⟩ := Option.isSome_iff_exists.mp (found root rootMember)
    rw [treeBuilt] at inside
    obtain ⟨rootListed, isRoot⟩ := List.mem_filter.mp rootMember
    obtain ⟨other, otherListed, same, below, shown⟩ := key_of_buildNode distinctValues
      (all.mem_iff.mpr rootListed) (.nil root) treeBuilt inside
    obtain rfl : other = key := List.inj_on_of_nodup_map distinct (all.mem_iff.mp otherListed)
      listed (same.symm.trans named)
    rw [IsUnder, sameParents] at below
    rw [sameParents] at shown
    exact ⟨root, isRoot, below, shown⟩
  have acyclic : ∀ key ∈ keys, ¬ Leads (parentAmong keys) key key := by
    intro key listed loop
    obtain ⟨root, isRoot, ⟨steps, reached⟩, -⟩ := located key listed
    apply follow_ne_none_of_leads loop (steps + 1)
    rw [follow_succ, reached, Option.bind_some]
    exact (isRoot_iff root).mp isRoot
  refine ⟨acyclic, ?_⟩
  intro key listed
  obtain ⟨root, -, -, shown⟩ := located key listed
  exact shown.resolve_right (acyclic key listed)

/-- Without cycles the forest is built and has every key in it once. -/
theorem exists_complete (distinct : (keys.map KeyMetadata.id).Nodup) (all : values.Perm keys)
    (buildable : Buildable keys) :
    ∃ graph, KeyGraph.build keys values = some graph ∧ graph.Complete keys := by
  have distinctValues : (values.map KeyMetadata.id).Nodup := (all.map _).nodup_iff.mpr distinct
  have sameParents := parentAmong_of_perm distinct all
  have buildableValues : Buildable values := by
    constructor
    · rw [sameParents]
      exact fun key listed => buildable.acyclic key (all.mem_iff.mp listed)
    · exact fun key listed => buildable.summarized key (all.mem_iff.mp listed)
  have grown : ∀ root ∈ keys.filter (isRoot keys), ∃ tree, buildNode values root [] = some tree ∧
      HoldsBelow values root tree := by
    intro root member
    have listed := List.mem_of_mem_filter member
    exact buildNode_holds distinctValues buildableValues (all.mem_iff.mpr listed) (.nil root)
  obtain ⟨trees, searched, holds⟩ := mapM_of_forall grown
  rw [KeyGraph.build, searched]
  refine ⟨_, rfl, ?_⟩
  have once : ((forestNodes ((keys.filter (isRoot keys)).map trees)).map GraphNode.id).Nodup := by
    apply nodup_forest distinctValues (distinct.of_map.filter _) holds
    intro first firstMember second secondMember key listed belowFirst belowSecond
    rw [IsUnder, sameParents] at belowFirst belowSecond
    exact under_one_root (List.mem_filter.mp firstMember).2 (List.mem_filter.mp secondMember).2
      belowFirst belowSecond
  intro key listed
  have present : key.id ∈
      (forestNodes ((keys.filter (isRoot keys)).map trees)).map GraphNode.id := by
    obtain ⟨root, rootListed, isRoot, below⟩ := buildable.exists_root distinct listed
    rw [mem_forest_iff holds]
    rw [IsUnder, ← sameParents] at below
    exact ⟨root, List.mem_filter.mpr ⟨rootListed, isRoot⟩, key, all.mem_iff.mpr listed, rfl, below⟩
  refine ⟨?_, Or.inl (List.count_eq_one_of_mem once present)⟩
  obtain ⟨node, inside, named⟩ := List.mem_map.mp present
  exact ⟨node, inside, named⟩

/-- The graph has every listed key in it exactly if no way up from a key leads back to it, and
no summary of a wrapping cuts an identifier inside a character. -/
theorem keyGraph_complete_iff (keys values : List KeyMetadata)
    (distinct : (keys.map KeyMetadata.id).Nodup) (all : values.Perm keys) :
    (∃ graph, KeyGraph.build keys values = some graph ∧ graph.Complete keys) ↔
      (∀ key ∈ keys, ¬ Leads (parentAmong keys) key key) ∧
        ∀ key ∈ keys, (wrappingSummary key).isSome = true := by
  constructor
  · rintro ⟨graph, built, complete⟩
    obtain ⟨acyclic, summarized⟩ := buildable_of_complete distinct all built complete
    exact ⟨acyclic, summarized⟩
  · rintro ⟨acyclic, summarized⟩
    exact exists_complete distinct all ⟨acyclic, summarized⟩

end Forest

/-- A key that names itself as its parent. -/
def selfParent : KeyMetadata := sampleKey "a" .domain .active (some "a") none

/-- Such a key is lost. -/
theorem selfParent_lost : ¬ ∃ graph, KeyGraph.build [selfParent] [selfParent] = some graph ∧
    graph.Complete [selfParent] := by
  rintro ⟨graph, built, complete⟩
  have empty : KeyGraph.build [selfParent] [selfParent] = some ⟨[], 1⟩ := rfl
  obtain rfl := Option.some.inj (built.symm.trans empty)
  obtain ⟨⟨node, present, -⟩, -⟩ := complete _ List.mem_cons_self
  cases present

/-- A domain and a key below it, in both orders. -/
def lineOfTwo : List KeyMetadata :=
  [sampleKey "kek" .keyEncrypting .active (some "dom") (some "dom"),
    sampleKey "dom" .domain .active none none]

theorem lineOfTwo_drawn :
    ∃ graph, KeyGraph.build lineOfTwo lineOfTwo.reverse = some graph ∧
      graph.Complete lineOfTwo := by
  apply (keyGraph_complete_iff lineOfTwo lineOfTwo.reverse (by decide) (List.reverse_perm _)).mpr
  constructor
  · have ends : ∀ key ∈ lineOfTwo, follow (parentAmong lineOfTwo) 2 key = none := by decide
    intro key listed loop
    exact follow_ne_none_of_leads loop 2 (ends key listed)
  · decide

end Citadel
