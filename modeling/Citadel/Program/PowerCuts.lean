import Citadel.Program.Reading

/-!
# Directories through power cuts

Processes use a directory one after the other; each may end or be ended at any point, and
the power may go out. `Remains` says what is left of the changes that they made: all of
them, but a power cut may lose the last ones, down to those before the last sync of the
directory.
-/

namespace Citadel

/-- What happens to a directory. -/
inductive Episode (κ ι ε α : Type) where
  /-- Processes did some of this work, and ended or were ended. -/
  | life (work : κ) (trace : List (Entry Shelf ι FileAccess FileAccess.Ret ε α))
  /-- The power went out. -/
  | powerCut

section Lives

variable {κ ι ε α : Type}

/-- A directory through its episodes. -/
inductive Lives [DecidableEq ι] (program : κ → ι → Program FileAccess FileAccess.Ret ε α)
    (usable : κ → Prop) (first : Volume) : List (Episode κ ι ε α) → Volume → Prop where
  | new : Lives program usable first [] first
  | life {episodes volume work trace}
      {pool : Pool ι Shelf FileAccess FileAccess.Ret ε α}
      (before : Lives program usable first episodes volume) (isUsable : usable work)
      (runs : Pool.Runs shelves ⟨.fresh volume, fun caller => .running (program work caller)⟩
        trace pool) :
      Lives program usable first (episodes ++ [.life work trace]) pool.shared.volume
  | powerCut {episodes volume after} (before : Lives program usable first episodes volume)
      (crashes : Volume.Crashes volume after) :
      Lives program usable first (episodes ++ [.powerCut]) after

/-- What is left of the changes of some episodes: all of them, but when the power goes out
the last ones may be lost, down to those that are durable. -/
inductive Remains : List (Episode κ ι ε α) → History → Prop where
  | new : Remains [] ⟨[], 0⟩
  | life {episodes history} (work : κ) (trace : List (Entry Shelf ι FileAccess FileAccess.Ret ε α))
      (before : Remains episodes history) :
      Remains (episodes ++ [.life work trace]) (history.along trace)
  | powerCut {episodes history} (count : Nat) (before : Remains episodes history)
      (least : history.durable ≤ count) (most : count ≤ history.changes.length) :
      Remains (episodes ++ [.powerCut]) ⟨history.changes.take count, count⟩

variable {naming : Naming} {start : String → Option Bytes}
  {mayReplace : κ → ι → Replacement → Prop} {episodes : List (Episode κ ι ε α)}
  {history : History} {first volume : Volume}
  {program : κ → ι → Program FileAccess FileAccess.Ret ε α} {usable : κ → Prop}
  {post : κ → ι → Progress → Outcome ε α → Prop}

/-- The history has what the callers made durable, and nothing that no caller made; and the
callers keep to their contracts. -/
structure Chronicle [DecidableEq ι] (naming : Naming) (mayReplace : κ → ι → Replacement → Prop)
    (post : κ → ι → Progress → Outcome ε α → Prop) (episodes : List (Episode κ ι ε α))
    (history : History) : Prop where
  kept : ∀ work trace, .life work trace ∈ episodes → ∀ caller,
    ∀ change ∈ (progressesOf naming (mayReplace work) trace caller).kept,
      change ∈ history.changes.take history.durable
  meant : ∀ change ∈ history.changes, ∃ work trace caller,
    .life work trace ∈ episodes ∧ mayReplace work caller change
  returned : ∀ work trace, .life work trace ∈ episodes → ∀ caller outcome,
    Returned trace caller outcome →
      post work caller (progressesOf naming (mayReplace work) trace caller) outcome

/-- Changes stay in the history. -/
theorem History.mem_along {change : Replacement} (member : change ∈ history.changes)
    (trace : List (Entry Shelf ι FileAccess FileAccess.Ret ε α)) :
    change ∈ (history.along trace).changes := by
  induction trace using List.reverseRecOn with
  | nil => exact member
  | append_singleton trace entry ih =>
      obtain ⟨before, event⟩ := entry
      cases event with
      | performed caller access answer =>
          rw [History.along_performed, History.changes_next]
          exact List.mem_append_left _ ih
      | returned caller outcome =>
          rw [History.along_returned]
          exact ih
      | drifted =>
          rw [History.along_drifted]
          exact ih

/-- What is durable before a trace is durable after it. -/
theorem History.mem_take_along {change : Replacement}
    (member : change ∈ history.changes.take history.durable)
    (trace : List (Entry Shelf ι FileAccess FileAccess.Ret ε α)) :
    change ∈ (history.along trace).changes.take (history.along trace).durable := by
  induction trace using List.reverseRecOn with
  | nil => exact member
  | append_singleton trace entry ih =>
      obtain ⟨before, event⟩ := entry
      cases event with
      | performed caller access answer =>
          rw [History.along_performed]
          exact History.mem_take_next ih
      | returned caller outcome =>
          rw [History.along_returned]
          exact ih
      | drifted =>
          rw [History.along_drifted]
          exact ih

variable [DecidableEq ι]

/-- A process that runs and is killed adds what its calls changed. -/
theorem Chronicle.life {work : κ} {trace : List (Entry Shelf ι FileAccess FileAccess.Ret ε α)}
    (chronicle : Chronicle naming mayReplace post episodes history)
    (accounts : Accounts (mayReplace work) history trace
      (progressesOf naming (mayReplace work) trace))
    (returned : ∀ caller outcome, Returned trace caller outcome →
      post work caller (progressesOf naming (mayReplace work) trace caller) outcome) :
    Chronicle naming mayReplace post (episodes ++ [.life work trace]) (history.along trace) where
  kept := by
    intro done told member caller change kept
    rcases List.mem_append.mp member with earlier | last
    · exact History.mem_take_along (chronicle.kept done told earlier caller change kept) trace
    · cases List.mem_singleton.mp last
      exact accounts.kept caller change kept
  meant := by
    intro change member
    rcases accounts.meant change member with earlier | ⟨caller, may⟩
    · obtain ⟨done, told, caller, within, may⟩ := chronicle.meant change earlier
      exact ⟨done, told, caller, List.mem_append_left _ within, may⟩
    · exact ⟨work, trace, caller, List.mem_append_right _ (List.mem_singleton_self _), may⟩
  returned := by
    intro done told member
    rcases List.mem_append.mp member with earlier | last
    · exact chronicle.returned done told earlier
    · cases List.mem_singleton.mp last
      exact returned

/-- A power cut leaves a prefix of the changes, with all that were durable. -/
theorem Chronicle.powerCut {count : Nat}
    (chronicle : Chronicle naming mayReplace post episodes history)
    (least : history.durable ≤ count) : Chronicle naming mayReplace post
      (episodes ++ [.powerCut]) ⟨history.changes.take count, count⟩ where
  kept := by
    intro work trace member caller change kept
    rcases List.mem_append.mp member with earlier | last
    · have durable := chronicle.kept work trace earlier caller change kept
      change change ∈ (history.changes.take count).take count
      rw [List.take_take, min_self]
      exact (List.take_prefix_take_left least).subset durable
    · cases List.mem_singleton.mp last
  meant := by
    intro change member
    obtain ⟨work, trace, caller, within, may⟩ :=
      chronicle.meant change (List.mem_of_mem_take member)
    exact ⟨work, trace, caller, List.mem_append_left _ within, may⟩
  returned := by
    intro work trace member
    rcases List.mem_append.mp member with earlier | last
    · exact chronicle.returned work trace earlier
    · cases List.mem_singleton.mp last

/-- Every process of the lives had work that may be done. -/
theorem Lives.isUsable_of_mem {work : κ}
    {trace : List (Entry Shelf ι FileAccess FileAccess.Ret ε α)}
    (lives : Lives program usable first episodes volume) (member : .life work trace ∈ episodes) :
    usable work := by
  induction lives with
  | new => cases member
  | life before isUsable runs ih =>
      rcases List.mem_append.mp member with earlier | last
      · exact ih earlier
      · cases List.mem_singleton.mp last
        exact isUsable
  | powerCut before crashes ih =>
      rcases List.mem_append.mp member with earlier | last
      · exact ih earlier
      · cases List.mem_singleton.mp last

/-- Whatever happens, the files are as what is left of the changes made them. -/
theorem Lives.remains (sound : first.Sound naming) (follows : first.Follows naming start ⟨[], 0⟩)
    (meets : ∀ work, usable work → ∀ caller, (program work caller).Meets
      (replacing naming (mayReplace work caller)) .start (post work caller))
    (lives : Lives program usable first episodes volume) :
    ∃ history, Remains episodes history ∧ Chronicle naming mayReplace post episodes history ∧
      volume.Sound naming ∧ volume.Follows naming start history := by
  induction lives with
  | new =>
      refine ⟨⟨[], 0⟩, .new, ⟨?_, ?_, ?_⟩, sound, follows⟩
      · intro work trace member
        cases member
      · intro change member
        cases member
      · intro work trace member
        cases member
  | @life episodes volume work trace pool before isUsable runs ih =>
      obtain ⟨history, remains, chronicle, sound, follows⟩ := ih
      have initially : ∀ caller, Pool.ThreadMeets (replacing naming (mayReplace work caller)) .start
          (post work caller) (.running (program work caller)) := meets work isUsable
      obtain ⟨consistent, keeping⟩ := consistent_of_runs sound follows rfl initially runs
      have returned : ∀ caller outcome, Returned trace caller outcome →
          post work caller (progressesOf naming (mayReplace work) trace caller) outcome := by
        intro caller outcome returned
        have ended := keeping caller
        rw [runs.finished_of_returned returned] at ended
        exact ended
      exact ⟨history.along trace, .life work trace remains,
        chronicle.life consistent.accounts returned, consistent.published.sound,
        consistent.published.follows⟩
  | @powerCut episodes volume after before crashes ih =>
      obtain ⟨history, remains, chronicle, sound, follows⟩ := ih
      obtain ⟨count, least, most, found⟩ := follows.crash sound crashes
      exact ⟨⟨history.changes.take count, count⟩, .powerCut count remains least most,
        chronicle.powerCut least, sound.crash crashes, found⟩

/-- Every life starts from what is left, and its callers keep to their contracts. -/
theorem Lives.runs {work : κ} {pool : Pool ι Shelf FileAccess FileAccess.Ret ε α}
    {trace : List (Entry Shelf ι FileAccess FileAccess.Ret ε α)} (sound : first.Sound naming)
    (follows : first.Follows naming start ⟨[], 0⟩)
    (meets : ∀ work, usable work → ∀ caller, (program work caller).Meets
      (replacing naming (mayReplace work caller)) .start (post work caller))
    (lives : Lives program usable first episodes volume) (isUsable : usable work)
    (runs : Pool.Runs shelves ⟨.fresh volume, fun caller => .running (program work caller)⟩
      trace pool) :
    ∃ history, Remains episodes history ∧ Chronicle naming mayReplace post episodes history ∧
      Consistent naming (mayReplace work) start history trace pool.shared ∧ ∀ caller,
        Pool.ThreadMeets (replacing naming (mayReplace work caller))
          (progressesOf naming (mayReplace work) trace caller) (post work caller)
          (pool.thread caller) := by
  have initially : ∀ caller, Pool.ThreadMeets (replacing naming (mayReplace work caller)) .start
      (post work caller) (.running (program work caller)) := meets work isUsable
  obtain ⟨history, remains, chronicle, sound, follows⟩ := lives.remains sound follows meets
  obtain ⟨consistent, keeping⟩ := consistent_of_runs sound follows rfl initially runs
  exact ⟨history, remains, chronicle, consistent, keeping⟩

end Lives

end Citadel
