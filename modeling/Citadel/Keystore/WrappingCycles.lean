import Citadel.Data.Following
import Citadel.Keystore.Doctor

/-!
# The cycles that the validation reports

Every identifier leads to at most one other, the key that wraps it. A search follows that way
until it ends, meets a key of an earlier search or comes back to its own path, and leaves
behind every key that it has passed. So a cycle is found by the first search that comes to it
and by no later one.
-/

namespace Citadel

variable {keys : List KeyMetadata} {visited path walk : List String} {current : String}
  {found : Option (List String)}

/-- The identifier that the current version of a key names as its wrapping key. -/
def wrappingParentOf (keys : List KeyMetadata) (id : String) : Option String :=
  (byId keys id).bind KeyMetadata.wrappingParent

/-- The report of a cycle. -/
def cycleViolation (ids : List String) : GraphViolation :=
  let joined := " → ".intercalate ids
  let closing := ids.headD ""
  ⟨.cycle, s!"cycle detected: {joined} → {closing}"⟩

/-! ### One search -/

/-- What a search does from one identifier: the keys that it walks through and the cycle that
it comes to, if any. -/
inductive Searched (keys : List KeyMetadata) (visited : List String) :
    List String → String → List String → Option (List String) → Prop where
  | loop {path : List String} {current : String} (onPath : current ∈ path) :
      Searched keys visited path current [] (some (path.dropWhile fun id => id ≠ current))
  | seen {path : List String} {current : String} (offPath : current ∉ path)
      (seen : current ∈ visited) : Searched keys visited path current [] none
  | missing {path : List String} {current : String} (offPath : current ∉ path)
      (absent : byId keys current = none) : Searched keys visited path current [] none
  | top {path : List String} {current : String} {key : KeyMetadata} (offPath : current ∉ path)
      (unseen : current ∉ visited) (stored : byId keys current = some key)
      (parentless : key.wrappingParent = none) :
      Searched keys visited path current [current] none
  | step {path walk : List String} {current parentId : String} {key : KeyMetadata}
      {found : Option (List String)} (offPath : current ∉ path) (unseen : current ∉ visited)
      (stored : byId keys current = some key) (wrapped : key.wrappingParent = some parentId)
      (rest : Searched keys visited (path ++ [current]) parentId walk found) :
      Searched keys visited path current (current :: walk) found

theorem dropWhile_eq_cons {front back : List String} (fresh : current ∉ front) :
    (front ++ current :: back).dropWhile (fun id => decide (id ≠ current)) = current :: back := by
  induction front with
  | nil => simp
  | cons first rest ih =>
      have different : first ≠ current := fun same => fresh (same ▸ List.mem_cons_self)
      rw [List.cons_append, List.dropWhile_cons_of_pos (by simpa using different)]
      exact ih (List.not_mem_of_not_mem_cons fresh)

/-- A path from where it first met an identifier. -/
theorem exists_dropWhile (onPath : current ∈ path) :
    ∃ front back, path = front ++ current :: back ∧
      path.dropWhile (fun id => id ≠ current) = current :: back := by
  obtain ⟨front, back, rfl, fresh⟩ := List.eq_append_cons_of_mem onPath
  exact ⟨front, back, rfl, dropWhile_eq_cons fresh⟩

/-- What `detect_cycle` returns. -/
theorem detectCycle_searched (inPath : List String) (violations : List GraphViolation)
    (same : ∀ id, id ∈ inPath ↔ id ∈ path) :
    ∃ walk found, Searched keys visited path current walk found ∧
      detectCycle keys current path inPath visited violations =
        (walk ++ visited, violations ++ found.toList.map cycleViolation) := by
  fun_induction detectCycle keys current path inPath visited violations with
  | case1 currentId path inPath onPath cycle joined =>
      have member := (same currentId).mp onPath
      obtain ⟨front, back, -, rest⟩ := exists_dropWhile member
      refine ⟨[], _, .loop member, ?_⟩
      simp only [Option.toList_some, List.map_cons, List.map_nil, cycleViolation, rest,
        List.headD_cons, List.nil_append, joined, cycle]
  | case2 currentId path inPath offPath seen =>
      refine ⟨[], none, .seen (fun member => offPath ((same _).mpr member)) seen, ?_⟩
      simp
  | case3 currentId path inPath offPath unseen absent =>
      refine ⟨[], none, .missing (fun member => offPath ((same _).mpr member)) absent, ?_⟩
      simp
  | case4 currentId path inPath offPath unseen key stored later collected searched ih =>
      have fresh : currentId ∉ path := fun member => offPath ((same _).mpr member)
      cases wrapped : key.wrappingParent with
      | none =>
          rw [wrapped] at searched
          cases searched
          refine ⟨[currentId], none, .top fresh unseen stored wrapped, ?_⟩
          simp
      | some parentId =>
          rw [wrapped] at searched
          have extended : ∀ id, id ∈ currentId :: inPath ↔ id ∈ path ++ [currentId] := by
            intro id
            rw [List.mem_cons, List.mem_append, List.mem_singleton, same, or_comm]
          obtain ⟨walk, found, rest, returned⟩ := ih parentId extended
          cases searched.symm.trans returned
          exact ⟨currentId :: walk, found, .step fresh unseen stored wrapped rest, rfl⟩

/-! ### What a search leaves behind -/

namespace Searched

variable (searched : Searched keys visited path current walk found)

include searched

/-- The keys that a search walks through are new. -/
theorem fresh : (∀ id ∈ walk, id ∉ path ∧ id ∉ visited) ∧ walk.Nodup := by
  induction searched with
  | loop onPath => exact ⟨List.forall_mem_nil _, List.nodup_nil⟩
  | seen offPath seen => exact ⟨List.forall_mem_nil _, List.nodup_nil⟩
  | missing offPath absent => exact ⟨List.forall_mem_nil _, List.nodup_nil⟩
  | top offPath unseen stored parentless =>
      refine ⟨?_, List.nodup_singleton _⟩
      intro id member
      obtain rfl := List.mem_singleton.mp member
      exact ⟨offPath, unseen⟩
  | step offPath unseen stored wrapped rest ih =>
      obtain ⟨new, nodup⟩ := ih
      constructor
      · intro id member
        rcases List.mem_cons.mp member with rfl | later
        · exact ⟨offPath, unseen⟩
        · obtain ⟨offLonger, unseenLater⟩ := new id later
          exact ⟨fun onPath => offLonger (List.mem_append_left _ onPath), unseenLater⟩
      · apply List.nodup_cons.mpr
        refine ⟨?_, nodup⟩
        intro again
        exact (new _ again).1 (List.mem_append_right _ List.mem_cons_self)

/-- Where a search starts is walked through, or was known, or is no key. -/
theorem start : current ∈ walk ∨ current ∈ path ∨ current ∈ visited ∨
    byId keys current = none := by
  cases searched with
  | loop onPath => exact Or.inr (Or.inl onPath)
  | seen offPath seen => exact Or.inr (Or.inr (Or.inl seen))
  | missing offPath absent => exact Or.inr (Or.inr (Or.inr absent))
  | top offPath unseen stored parentless => exact Or.inl List.mem_cons_self
  | step offPath unseen stored wrapped rest => exact Or.inl List.mem_cons_self

/-- What a key on the walk leads to is known after the search. -/
theorem closed {id parentId : String} (member : id ∈ walk)
    (edge : wrappingParentOf keys id = some parentId) :
    parentId ∈ walk ∨ parentId ∈ path ∨ parentId ∈ visited ∨ byId keys parentId = none := by
  induction searched with
  | loop onPath => cases member
  | seen offPath seen => cases member
  | missing offPath absent => cases member
  | top offPath unseen stored parentless =>
      obtain rfl := List.mem_singleton.mp member
      rw [wrappingParentOf, stored, Option.bind_some, parentless] at edge
      cases edge
  | @step path walk current parent key found offPath unseen stored wrapped rest ih =>
      have forget : parentId ∈ walk ∨ parentId ∈ path ++ [current] ∨ parentId ∈ visited ∨
          byId keys parentId = none →
          parentId ∈ current :: walk ∨ parentId ∈ path ∨ parentId ∈ visited ∨
            byId keys parentId = none := by
        simp only [List.mem_append, List.mem_cons, List.not_mem_nil]
        tauto
      rcases List.mem_cons.mp member with rfl | later
      · rw [wrappingParentOf, stored, Option.bind_some, wrapped] at edge
        obtain rfl := Option.some.inj edge
        exact forget rest.start
      · exact forget (ih later)

/-- The cycle that a search reports is one, and lies on its path and its walk. -/
theorem isCycle {ids : List String} (reported : found = some ids) (nodup : path.Nodup)
    (chain : List.IsChain (fun id parentId => wrappingParentOf keys id = some parentId)
      (path ++ [current])) :
    IsCycle (wrappingParentOf keys) (ids : Cycle String) ∧ ids ≠ [] ∧
      ∀ id ∈ ids, id ∈ path ∨ id ∈ walk := by
  induction searched with
  | loop onPath =>
      obtain ⟨front, back, rfl, rest⟩ := exists_dropWhile onPath
      rw [rest] at reported
      obtain rfl := Option.some.inj reported
      have tail := nodup.sublist (List.sublist_append_right front _)
      rw [List.append_assoc] at chain
      have round := chain.right_of_append
      refine ⟨⟨?_, Cycle.nodup_coe_iff.mpr tail, (Cycle.chain_coe_cons _ _ _).mpr round⟩,
        List.cons_ne_nil _ _, ?_⟩
      · rw [Ne, Cycle.coe_eq_nil]
        exact List.cons_ne_nil _ _
      · intro id member
        exact Or.inl (List.mem_append_right _ member)
  | seen offPath seen => cases reported
  | missing offPath absent => cases reported
  | top offPath unseen stored parentless => cases reported
  | @step path walk current parentId key found offPath unseen stored wrapped rest ih =>
      have longer : (path ++ [current]).Nodup :=
        List.nodup_append_comm.mp (List.nodup_cons.mpr ⟨offPath, nodup⟩)
      have edge : wrappingParentOf keys current = some parentId := by
        rw [wrappingParentOf, stored, Option.bind_some, wrapped]
      have further : List.IsChain (fun id parentId => wrappingParentOf keys id = some parentId)
          (path ++ [current] ++ [parentId]) := by
        apply chain.append (List.isChain_singleton _)
        intro last isLast first isFirst
        rw [List.getLast?_concat, Option.mem_some_iff] at isLast
        rw [List.head?_cons, Option.mem_some_iff] at isFirst
        rw [← isLast, ← isFirst]
        exact edge
      obtain ⟨cycle, nonempty, inside⟩ := ih reported longer further
      refine ⟨cycle, nonempty, ?_⟩
      intro id member
      have place := inside id member
      simp only [List.mem_append, List.mem_cons, List.not_mem_nil] at place ⊢
      tauto

/-- A search from an endless set of new identifiers comes to a cycle in it. -/
theorem finds {endless : Set String}
    (leads : ∀ id ∈ endless, ∃ parentId ∈ endless, wrappingParentOf keys id = some parentId)
    (new : ∀ id ∈ endless, id ∉ visited) (starts : current ∈ endless) :
    ∃ ids, found = some ids ∧ ∃ id ∈ ids, id ∈ endless := by
  induction searched with
  | loop onPath =>
      obtain ⟨front, back, -, rest⟩ := exists_dropWhile onPath
      rw [rest]
      exact ⟨_, rfl, _, List.mem_cons_self, starts⟩
  | seen offPath seen => exact absurd seen (new _ starts)
  | missing offPath absent =>
      obtain ⟨parentId, -, edge⟩ := leads _ starts
      rw [wrappingParentOf, absent] at edge
      cases edge
  | top offPath unseen stored parentless =>
      obtain ⟨parentId, -, edge⟩ := leads _ starts
      rw [wrappingParentOf, stored, Option.bind_some, parentless] at edge
      cases edge
  | step offPath unseen stored wrapped rest ih =>
      obtain ⟨parentId, inside, edge⟩ := leads _ starts
      rw [wrappingParentOf, stored, Option.bind_some, wrapped] at edge
      obtain rfl := Option.some.inj edge
      exact ih inside

/-- A search that walks through an endless set of new identifiers comes to a cycle in it. -/
theorem finds_of_mem {endless : Set String}
    (leads : ∀ id ∈ endless, ∃ parentId ∈ endless, wrappingParentOf keys id = some parentId)
    (new : ∀ id ∈ endless, id ∉ visited) {id : String} (member : id ∈ walk)
    (inside : id ∈ endless) : ∃ ids, found = some ids ∧ ∃ id ∈ ids, id ∈ endless := by
  have whole := searched
  induction searched with
  | loop onPath => cases member
  | seen offPath seen => cases member
  | missing offPath absent => cases member
  | top offPath unseen stored parentless =>
      obtain rfl := List.mem_singleton.mp member
      exact whole.finds leads new inside
  | step offPath unseen stored wrapped rest ih =>
      rcases List.mem_cons.mp member with rfl | later
      · exact whole.finds leads new inside
      · exact ih later rest

end Searched

/-! ### All searches -/

/-- A cycle goes on at each of its elements. -/
theorem IsCycle.next_mem {α : Type} {next : α → Option α} {cycle : Cycle α}
    (isCycle : IsCycle next cycle) {id : α} (member : id ∈ cycle) :
    ∃ other ∈ cycle, next id = some other := by
  obtain ⟨rest, rfl⟩ := Cycle.exists_cons member
  have chain := (Cycle.chain_coe_cons _ _ _).mp isCycle.chain
  cases rest with
  | nil => exact ⟨id, member, (List.isChain_cons_cons.mp chain).1⟩
  | cons second others =>
      refine ⟨second, ?_, (List.isChain_cons_cons.mp chain).1⟩
      exact Cycle.mem_coe_iff.mpr (List.mem_cons_of_mem _ List.mem_cons_self)

/-- What holds between two searches: the visited keys lead only to visited ones, and the
cycles among them are those reported, each once. -/
structure Explored (keys : List KeyMetadata) (visited : List String)
    (reported : List (List String)) : Prop where
  closed : ∀ id ∈ visited, ∀ parentId, wrappingParentOf keys id = some parentId →
    parentId ∈ visited ∨ byId keys parentId = none
  sound : ∀ ids ∈ reported, IsCycle (wrappingParentOf keys) (ids : Cycle String) ∧ ids ≠ [] ∧
    ∀ id ∈ ids, id ∈ visited
  complete : ∀ cycle : Cycle String, IsCycle (wrappingParentOf keys) cycle →
    (∃ id ∈ cycle, id ∈ visited) → ∃ ids ∈ reported, (ids : Cycle String) = cycle
  nodup : (reported.map fun ids : List String => (ids : Cycle String)).Nodup

theorem Explored.nothing : Explored keys [] [] where
  closed := List.forall_mem_nil _
  sound := List.forall_mem_nil _
  complete := by
    rintro cycle - ⟨id, -, member⟩
    cases member
  nodup := List.nodup_nil

/-- The elements of a cycle that has none of them visited are an endless set. -/
theorem Explored.cycle_new {reported : List (List String)}
    (explored : Explored keys visited reported) {cycle : Cycle String}
    (isCycle : IsCycle (wrappingParentOf keys) cycle)
    (unreported : ¬ ∃ ids ∈ reported, (ids : Cycle String) = cycle) :
    ∀ id ∈ {id | id ∈ cycle}, id ∉ visited := by
  intro id member seen
  exact unreported (explored.complete cycle isCycle ⟨id, member, seen⟩)

/-- One more search. -/
theorem Explored.search {reported : List (List String)}
    (explored : Explored keys visited reported)
    (searched : Searched keys visited [] current walk found) :
    Explored keys (walk ++ visited) (reported ++ found.toList) := by
  obtain ⟨new, -⟩ := searched.fresh
  have cycleOf : ∀ ids, found = some ids → IsCycle (wrappingParentOf keys) (ids : Cycle String) ∧
      ids ≠ [] ∧ ∀ id ∈ ids, id ∈ walk := by
    intro ids isFound
    obtain ⟨isCycle, nonempty, inside⟩ :=
      searched.isCycle isFound List.nodup_nil (List.isChain_singleton _)
    exact ⟨isCycle, nonempty, fun id member => (inside id member).resolve_left List.not_mem_nil⟩
  constructor
  · intro id member parentId edge
    rw [List.mem_append]
    rcases List.mem_append.mp member with walked | seen
    · rcases searched.closed walked edge with inWalk | onPath | known | absent
      · exact Or.inl (Or.inl inWalk)
      · cases onPath
      · exact Or.inl (Or.inr known)
      · exact Or.inr absent
    · rcases explored.closed id seen parentId edge with known | absent
      · exact Or.inl (Or.inr known)
      · exact Or.inr absent
  · intro ids member
    rcases List.mem_append.mp member with old | added
    · obtain ⟨isCycle, nonempty, inside⟩ := explored.sound ids old
      exact ⟨isCycle, nonempty, fun id onCycle => List.mem_append_right _ (inside id onCycle)⟩
    · obtain ⟨isCycle, nonempty, inside⟩ := cycleOf ids (Option.mem_toList.mp added)
      exact ⟨isCycle, nonempty, fun id onCycle => List.mem_append_left _ (inside id onCycle)⟩
  · rintro cycle isCycle ⟨id, onCycle, member⟩
    by_cases old : ∃ ids ∈ reported, (ids : Cycle String) = cycle
    · obtain ⟨ids, listed, same⟩ := old
      exact ⟨ids, List.mem_append_left _ listed, same⟩
    · have unseen := explored.cycle_new isCycle old
      have walked : id ∈ walk := (List.mem_append.mp member).resolve_right (unseen id onCycle)
      obtain ⟨ids, isFound, shared, inIds, inCycle⟩ :=
        searched.finds_of_mem (fun _ inside => isCycle.next_mem inside) unseen walked onCycle
      obtain ⟨foundCycle, -, -⟩ := cycleOf ids isFound
      refine ⟨ids, List.mem_append_right _ (Option.mem_toList.mpr isFound), ?_⟩
      exact foundCycle.unique isCycle (Cycle.mem_coe_iff.mpr inIds) inCycle
  · rw [List.map_append, List.nodup_append]
    refine ⟨explored.nodup, ?_, ?_⟩
    · cases found with
      | none => exact List.nodup_nil
      | some ids => exact List.nodup_singleton _
    · intro old isOld added isAdded same
      obtain ⟨oldIds, listed, rfl⟩ := List.mem_map.mp isOld
      obtain ⟨ids, isFound, rfl⟩ := List.mem_map.mp isAdded
      obtain ⟨-, nonempty, inWalk⟩ := cycleOf ids (Option.mem_toList.mp isFound)
      obtain ⟨-, -, inVisited⟩ := explored.sound oldIds listed
      obtain ⟨id, member⟩ := List.exists_mem_of_ne_nil ids nonempty
      have shared : id ∈ oldIds := by
        rw [← Cycle.mem_coe_iff, same]
        exact Cycle.mem_coe_iff.mpr member
      exact (new id (inWalk id member)).2 (inVisited id shared)

/-- The searches from all keys of a list. -/
theorem exists_explored (rest : List KeyMetadata) {reported : List (List String)}
    (explored : Explored keys visited reported) (violations : List GraphViolation) :
    ∃ later more, Explored keys later (reported ++ more) ∧ visited ⊆ later ∧
      (∀ key ∈ rest, byId keys key.id.text ≠ none → key.id.text ∈ later) ∧
      rest.foldl (fun (state : List String × List GraphViolation) key =>
        if key.id.text ∈ state.1 then state
        else detectCycle keys key.id.text [] [] state.1 state.2) (visited, violations) =
          (later, violations ++ more.map cycleViolation) := by
  induction rest generalizing visited reported violations with
  | nil =>
      refine ⟨visited, [], ?_, fun _ member => member, List.forall_mem_nil _, ?_⟩
      · rwa [List.append_nil]
      · rw [List.foldl_nil, List.map_nil, List.append_nil]
  | cons key rest ih =>
      rw [List.foldl_cons]
      by_cases seen : key.id.text ∈ visited
      · rw [if_pos seen]
        obtain ⟨later, more, done, kept, covers, folded⟩ := ih explored violations
        refine ⟨later, more, done, kept, ?_, folded⟩
        intro other member stored
        rcases List.mem_cons.mp member with rfl | inRest
        · exact kept seen
        · exact covers other inRest stored
      · rw [if_neg seen]
        have search : ∃ walk found, Searched keys visited [] key.id.text walk found ∧
            detectCycle keys key.id.text [] [] visited violations =
              (walk ++ visited, violations ++ found.toList.map cycleViolation) :=
          detectCycle_searched [] violations fun _ => Iff.rfl
        obtain ⟨walk, found, searched, returned⟩ := search
        rw [returned]
        obtain ⟨later, more, done, kept, covers, folded⟩ :=
          ih (explored.search searched) (violations ++ found.toList.map cycleViolation)
        refine ⟨later, found.toList ++ more, ?_, ?_, ?_, ?_⟩
        · rwa [← List.append_assoc]
        · exact fun id member => kept (List.mem_append_right _ member)
        · intro other member stored
          rcases List.mem_cons.mp member with rfl | inRest
          · rcases searched.start with walked | onPath | known | absent
            · exact kept (List.mem_append_left _ walked)
            · cases onPath
            · exact kept (List.mem_append_right _ known)
            · exact absurd absent stored
          · exact covers other inRest stored
        · rw [folded, List.map_append, List.append_assoc]

/-- The checks of single keys report no cycles. -/
theorem keyViolations_kind {key : KeyMetadata} {violation : GraphViolation}
    (reported : violation ∈ keyViolations keys key) : violation.kind ≠ .cycle := by
  unfold keyViolations at reported
  intro isCycle
  cases wrapped : key.wrappingParent with
  | none =>
      simp only [wrapped] at reported
      split at reported
      · obtain rfl := List.mem_singleton.mp reported
        cases isCycle
      · cases reported
  | some parentId =>
      simp only [wrapped] at reported
      cases stored : byId keys parentId with
      | none =>
          simp only [stored] at reported
          obtain rfl := List.mem_singleton.mp reported
          cases isCycle
      | some parent =>
          simp only [stored, List.mem_append] at reported
          rcases reported with direction | inactive
          · split at direction
            · obtain rfl := List.mem_singleton.mp direction
              cases isCycle
            · cases direction
          · split at inactive
            · cases inactive
            · obtain rfl := List.mem_singleton.mp inactive
              cases isCycle

/-- The reported cycles are those of the wrapping edges, each reported once. -/
theorem cycles_reported (distinct : (keys.map KeyMetadata.id).Nodup) :
    ∃ reported : List (List String),
      (validateWrappingGraph keys).filter (fun violation => violation.kind = .cycle) =
        reported.map cycleViolation ∧
      (reported.map fun ids : List String => (ids : Cycle String)).Nodup ∧
      ∀ cycle : Cycle String, (∃ ids ∈ reported, (ids : Cycle String) = cycle) ↔
        IsCycle (wrappingParentOf keys) cycle := by
  obtain ⟨visited, reported, explored, -, covers, folded⟩ :=
    exists_explored keys (Explored.nothing : Explored keys [] []) (keys.flatMap (keyViolations keys))
  rw [List.nil_append] at explored
  refine ⟨reported, ?_, explored.nodup, ?_⟩
  · have whole : validateWrappingGraph keys =
        keys.flatMap (keyViolations keys) ++ reported.map cycleViolation :=
      congrArg Prod.snd folded
    have others : (keys.flatMap (keyViolations keys)).filter
        (fun violation => violation.kind = .cycle) = [] := by
      apply List.filter_eq_nil_iff.mpr
      intro violation member
      obtain ⟨key, -, found⟩ := List.mem_flatMap.mp member
      simpa using keyViolations_kind found
    have cycles : (reported.map cycleViolation).filter (fun violation => violation.kind = .cycle) =
        reported.map cycleViolation := by
      apply List.filter_eq_self.mpr
      intro violation member
      obtain ⟨ids, -, rfl⟩ := List.mem_map.mp member
      exact decide_eq_true rfl
    rw [whole, List.filter_append, others, cycles, List.nil_append]
  · intro cycle
    constructor
    · rintro ⟨ids, listed, rfl⟩
      exact (explored.sound ids listed).1
    · intro isCycle
      obtain ⟨ids, rfl⟩ := Quotient.exists_rep cycle
      have nonempty : ids ≠ [] := fun empty => isCycle.nonempty (congrArg _ empty)
      obtain ⟨id, member⟩ := List.exists_mem_of_ne_nil ids nonempty
      have onCycle : id ∈ (ids : Cycle String) := Cycle.mem_coe_iff.mpr member
      apply explored.complete _ isCycle
      refine ⟨id, onCycle, ?_⟩
      obtain ⟨parentId, -, edge⟩ := isCycle.next_mem onCycle
      obtain ⟨key, stored, -⟩ := Option.bind_eq_some_iff.mp edge
      obtain ⟨listed, rfl⟩ := (byId_eq_some_iff_mem distinct).mp stored
      apply covers key listed
      rw [stored]
      exact Option.some_ne_none key

end Citadel
