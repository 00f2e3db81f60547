import Citadel.Audit.Chain
import Citadel.Audit.PlainFormat
import Mathlib.Data.List.Nodup

/-!
# The audit log across processes

Every process starts a chain of its own at the genesis hash, while the file keeps the
lines of the processes before it. The log of several processes is therefore one chain
only if at most one of them recorded anything.
-/

namespace Citadel.Audit

variable {Body : Type} {format : LogFormat Body}

/-- The verifier accepts the log, and its sequence numbers count from zero. -/
structure SoundLog (format : LogFormat Body) (file : Bytes) : Prop where
  accepted : (cmdVerifyChain format (some file)).Accepts
  counts : (eventLines file).map (sequenceOf format) =
    (List.range (eventLines file).length).map some

/-- At most one process records events, and not more than there are sequence numbers. -/
structure OneWriter (runs : List (List (AuditEvent Body))) : Prop where
  single : (runs.filter fun run => !run.isEmpty).length ≤ 1
  numbers : ∀ run ∈ runs, run.length ≤ 2 ^ 64

theorem stamp_of_mem_writtenBy {runs : List (List (AuditEvent Body))} {event : AuditEvent Body}
    (member : event ∈ writtenBy format runs) : Stamp event := by
  obtain ⟨run, -, written⟩ := List.mem_flatMap.mp member
  exact stamp_of_mem_stamped (ChainState.valid_new format) written

/-- The lines of a log are those that the processes wrote. -/
theorem eventLines_afterRuns (lawful : format.Lawful) {runs : List (List (AuditEvent Body))}
    {file : Bytes} (log : afterRuns format runs = some file) :
    eventLines file = (writtenBy format runs).map format.serialize := by
  rw [afterRuns_eq, extended] at log
  split at log
  · cases log
  · cases log
    exact eventLines_logBytes lawful fun _ => stamp_of_mem_writtenBy

/-- The numbers that a sequence of processes gives out. -/
def numbered (runs : List (List (AuditEvent Body))) : List Nat :=
  runs.flatMap fun run => (List.range run.length).map (· % 2 ^ 64)

/-- The numbers of the whole log: every process counts from zero. -/
theorem sequences_afterRuns (lawful : format.Lawful) {runs : List (List (AuditEvent Body))}
    {file : Bytes} (log : afterRuns format runs = some file) :
    (eventLines file).map (sequenceOf format) = (numbered runs).map some := by
  have numbers : (writtenBy format runs).map AuditEvent.sequence = (numbered runs).map some := by
    rw [writtenBy, numbered, List.map_flatMap, List.map_flatMap]
    apply List.flatMap_congr
    intro run _
    rw [stamped_sequence _ _ (ChainState.valid_new format).small, List.map_map]
    apply List.map_congr_left
    intro index _
    rw [show (ChainState.new format).sequence = 0 from rfl, Nat.zero_add]
    rfl
  rw [eventLines_afterRuns lawful log, List.map_map, ← numbers]
  apply List.map_congr_left
  intro event member
  exact ((stamp_of_mem_writtenBy member).readsAs lawful).sequence

/-! ### How often a log starts over -/

/-- Every process that records anything starts at zero. -/
theorem writers_le_count (runs : List (List (AuditEvent Body))) :
    (runs.filter fun run => !run.isEmpty).length ≤ (numbered runs).count 0 := by
  induction runs with
  | nil => exact Nat.zero_le _
  | cons run runs ih =>
      rw [numbered, List.flatMap_cons, List.count_append, ← numbered]
      cases run with
      | nil => simpa using ih
      | cons event run =>
          have starts : 0 < ((List.range (event :: run).length).map (· % 2 ^ 64)).count 0 := by
            rw [List.count_pos_iff, List.mem_map]
            exact ⟨0, List.mem_range.mpr (Nat.succ_pos _), rfl⟩
          rw [List.filter_cons, if_pos (by simp), List.length_cons]
          omega

/-- Numbers that count up to the end come from one process. -/
theorem oneWriter_of_numbered {runs : List (List (AuditEvent Body))} {count : Nat}
    (counts : numbered runs = List.range count) : OneWriter runs where
  single := by
    apply (writers_le_count runs).trans
    rw [counts]
    exact List.nodup_iff_count_le_one.mp List.nodup_range 0
  numbers run member := by
    have fits : count ≤ 2 ^ 64 := by
      by_contra large
      have last : 2 ^ 64 ∈ numbered runs := by
        rw [counts, List.mem_range]
        omega
      obtain ⟨run, -, listed⟩ := List.mem_flatMap.mp last
      obtain ⟨index, -, wrapped⟩ := List.mem_map.mp listed
      have small : index % 2 ^ 64 < 2 ^ 64 := Nat.mod_lt _ (Nat.two_pow_pos 64)
      omega
    have part : ((List.range run.length).map (· % 2 ^ 64)).Sublist (numbered runs) :=
      List.sublist_flatten_of_mem (List.mem_map_of_mem member)
    have shorter := part.length_le
    rw [counts, List.length_map, List.length_range, List.length_range] at shorter
    omega

/-- The processes that record nothing leave no trace. -/
theorem flatMap_writers {β : Type} (runs : List (List (AuditEvent Body)))
    (written : List (AuditEvent Body) → List β) (silent : written [] = []) :
    (runs.filter fun run => !run.isEmpty).flatMap written = runs.flatMap written := by
  induction runs with
  | nil => rfl
  | cons run runs ih =>
      cases run with
      | nil => simpa [silent] using ih
      | cons event run => simp [ih]

/-- The one process that records anything has written the log. -/
theorem OneWriter.written {runs : List (List (AuditEvent Body))} (oneWriter : OneWriter runs)
    (format : LogFormat Body) :
    writtenBy format runs = [] ∨
      ∃ run ∈ runs, run ≠ [] ∧ writtenBy format runs = stamped format (.new format) run ∧
        numbered runs = List.range run.length := by
  have single := oneWriter.single
  have written : writtenBy format runs = _ :=
    (flatMap_writers runs (stamped format (.new format)) rfl).symm
  have numbers : numbered runs = _ :=
    (flatMap_writers runs (fun run => (List.range run.length).map (· % 2 ^ 64)) rfl).symm
  cases writers : runs.filter fun run => !run.isEmpty with
  | nil =>
      rw [writers] at written
      exact .inl written
  | cons run others =>
      rw [writers] at single written numbers
      obtain rfl : others = [] := by
        rw [← List.length_eq_zero_iff]
        rw [List.length_cons] at single
        omega
      have member : run ∈ runs.filter fun run => !run.isEmpty := by
        rw [writers]
        exact List.mem_cons_self
      obtain ⟨listed, recorded⟩ := List.mem_filter.mp member
      refine .inr ⟨run, listed, by simpa using recorded, by simpa using written, ?_⟩
      rw [numbers, List.flatMap_singleton]
      have unwrapped : ∀ index ∈ List.range run.length, index % 2 ^ 64 = id index := by
        intro index inside
        have fits := oneWriter.numbers run listed
        exact Nat.mod_eq_of_lt ((List.mem_range.mp inside).trans_le fits)
      rw [List.map_congr_left unwrapped, List.map_id]

/-- No process recorded anything. -/
theorem numbered_of_afterRuns_none {runs : List (List (AuditEvent Body))}
    (log : afterRuns format runs = none) : numbered runs = List.range 0 := by
  rw [afterRuns_eq, extended] at log
  split at log
  · rename_i silent
    have quiet := List.flatMap_eq_nil_iff.mp (List.map_eq_nil_iff.mp silent)
    apply List.flatMap_eq_nil_iff.mpr
    intro run member
    have empty := congrArg List.length (quiet run member)
    rw [stamped_length] at empty
    rw [empty]
    rfl
  · cases log

/-- Several processes that record something leave numbers that start over. -/
theorem oneWriter_of_sound (lawful : format.Lawful) {runs : List (List (AuditEvent Body))}
    (sound : ∀ file, afterRuns format runs = some file → SoundLog format file) : OneWriter runs := by
  cases log : afterRuns format runs with
  | none => exact oneWriter_of_numbered (numbered_of_afterRuns_none log)
  | some file =>
      apply oneWriter_of_numbered
      have counts := (sound file log).counts
      rw [sequences_afterRuns lawful log] at counts
      exact List.map_injective_iff.mpr (Option.some_injective _) counts

/-- The log of one process is sound. -/
theorem OneWriter.soundLog (lawful : format.Lawful) {runs : List (List (AuditEvent Body))}
    (oneWriter : OneWriter runs) {file : Bytes} (log : afterRuns format runs = some file) :
    SoundLog format file := by
  have lines := eventLines_afterRuns lawful log
  have sequences := sequences_afterRuns lawful log
  rw [afterRuns_eq, extended] at log
  rcases oneWriter.written format with silent | ⟨run, -, recorded, written, numbers⟩
  · rw [silent] at log
    cases log
  · rw [written] at log lines
    rw [if_neg (by simpa [← List.length_eq_zero_iff] using recorded)] at log
    cases log
    refine ⟨?_, ?_⟩
    · obtain ⟨digits, intact⟩ := cmdVerifyChain_stamped lawful recorded
      rw [Option.getD_none, List.nil_append, intact]
      rfl
    · rw [sequences, numbers, lines, List.length_map, stamped_length]

/-- The log after any sequence of processes is accepted and numbered throughout exactly if
at most one of the processes recorded anything. -/
theorem log_sound_iff_one_writer (lawful : format.Lawful) (runs : List (List (AuditEvent Body))) :
    (∀ file, afterRuns format runs = some file → SoundLog format file) ↔ OneWriter runs :=
  ⟨oneWriter_of_sound lawful, fun oneWriter _ log => oneWriter.soundLog lawful log⟩

/-- A process that records one event. -/
def oneEvent : List (AuditEvent Bool) := [⟨true, none, none⟩]

/-- The log of one such process, with two that record nothing, is sound. -/
theorem one_process_log_sound :
    ∃ file, afterRuns plainFormat [[], oneEvent, []] = some file ∧ SoundLog plainFormat file := by
  refine ⟨_, rfl, ?_⟩
  apply (log_sound_iff_one_writer plainFormat_lawful [[], oneEvent, []]).mpr
  · exact ⟨by decide, by decide⟩
  · rfl

/-- After a restart the verifier rejects the log, and the numbers start over. -/
theorem restarted_log_rejected :
    ∃ file, afterRuns plainFormat [oneEvent, oneEvent] = some file ∧
      ¬ (cmdVerifyChain plainFormat (some file)).Accepts ∧
      (eventLines file).map (sequenceOf plainFormat) = [some 0, some 0] := by
  obtain ⟨file, log⟩ : ∃ file, afterRuns plainFormat [oneEvent, oneEvent] = some file := ⟨_, rfl⟩
  refine ⟨file, log, ?_, sequences_afterRuns plainFormat_lawful log⟩
  intro accepts
  have linked := linked_of_accepts accepts
  have lines := eventLines_afterRuns plainFormat_lawful log
  have chainedLines : (eventLines file).filter (chained plainFormat) = eventLines file := by
    rw [lines, List.filter_eq_self]
    intro line member
    obtain ⟨event, written, rfl⟩ := List.mem_map.mp member
    exact ((stamp_of_mem_writtenBy written).readsAs plainFormat_lawful).chained
  rw [chainedLines, lines] at linked
  -- Both lines name the genesis hash, but the second follows the first.
  obtain ⟨first, second, -⟩ := linked
  rw [first] at second
  exact absurd second (by decide +kernel)

end Citadel.Audit
