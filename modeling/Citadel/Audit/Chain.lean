import Citadel.Audit.Log

/-!
# What a sink writes and what the verifier reads

The lines of one sink are a hash chain, and `verifyFrom` accepts exactly the lines whose
chained ones are linked. Between the two stands the file: a log is read back line by line
as it was written.
-/

namespace Citadel.Audit

open HashChain

variable {Body : Type} {format : LogFormat Body}

section Stamped

variable (format)

/-- The events as one sink writes them. -/
def stamped (state : ChainState) : List (AuditEvent Body) → List (AuditEvent Body)
  | [] => []
  | event :: rest => (state.link format event).1 :: stamped (state.link format event).2 rest

/-- The state of a sink after it has recorded events. -/
def stateAfter (state : ChainState) (events : List (AuditEvent Body)) : ChainState :=
  events.foldl (fun state event => (state.link format event).2) state

/-- The lines of a log, each ended by a newline. -/
def logBytes (lines : List String) : Bytes :=
  lines.flatMap fun line => utf8 line ++ [10]

/-- The log with more lines at its end. -/
def extended (file : Option Bytes) (lines : List String) : Option Bytes :=
  if lines = [] then file else some (file.getD [] ++ logBytes lines)

end Stamped

@[simp] theorem stamped_nil (state : ChainState) : stamped format state [] = [] := rfl

@[simp] theorem stamped_length (state : ChainState) (events : List (AuditEvent Body)) :
    (stamped format state events).length = events.length := by
  induction events generalizing state with
  | nil => rfl
  | cons event events ih => simp [stamped, ih]

theorem stateAfter_snoc (state : ChainState) (events : List (AuditEvent Body))
    (event : AuditEvent Body) :
    stateAfter format state (events ++ [event]) =
      ((stateAfter format state events).link format event).2 := by
  simp [stateAfter]

theorem stamped_append (state : ChainState) (first second : List (AuditEvent Body)) :
    stamped format state (first ++ second) =
      stamped format state first ++ stamped format (stateAfter format state first) second := by
  induction first generalizing state with
  | nil => rfl
  | cons event first ih => simp [stamped, stateAfter, ih]

/-- A log of some of the events is a part of the log of all. -/
theorem stamped_take (state : ChainState) (events : List (AuditEvent Body)) (count : Nat) :
    stamped format state (events.take count) = (stamped format state events).take count := by
  induction events generalizing state count with
  | nil => simp
  | cons event events ih =>
      cases count with
      | zero => simp
      | succ count => simp [stamped, ih]

/-- What a sink writes: the sequence numbers count, and each event names the hash of the
one before it. -/
theorem stamped_sequence (state : ChainState) (events : List (AuditEvent Body))
    (small : state.sequence < 2 ^ 64) :
    (stamped format state events).map AuditEvent.sequence =
      (List.range events.length).map fun index => some ((state.sequence + index) % 2 ^ 64) := by
  induction events generalizing state with
  | nil => rfl
  | cons event events ih =>
      have next : (state.link format event).2.sequence = (state.sequence + 1) % 2 ^ 64 := rfl
      have rest := ih (state.link format event).2 (by rw [next]; exact Nat.mod_lt _ (by decide))
      rw [stamped, List.map_cons, rest, List.length_cons, List.range_succ_eq_map, List.map_cons,
        List.map_map, next]
      congr 1
      · rw [Nat.add_zero, Nat.mod_eq_of_lt small]
        rfl
      · apply List.map_congr_left
        intro index _
        simp only [Function.comp_apply, Option.some.injEq]
        omega

/-- A state that a sink can be in. -/
structure ChainState.Valid (format : LogFormat Body) (state : ChainState) : Prop where
  small : state.sequence < 2 ^ 64
  hashed : ∃ text, state.prevHash = format.hash text

theorem ChainState.valid_new (format : LogFormat Body) : (ChainState.new format).Valid format :=
  ⟨Nat.two_pow_pos 64, genesisText, rfl⟩

theorem ChainState.valid_link (state : ChainState) (event : AuditEvent Body) :
    (state.link format event).2.Valid format :=
  ⟨Nat.mod_lt _ (by decide), _, rfl⟩

theorem ChainState.Valid.stamp {state : ChainState} (valid : state.Valid format)
    (event : AuditEvent Body) : Stamp (state.link format event).1 := by
  obtain ⟨text, hashed⟩ := valid.hashed
  exact ⟨⟨state.sequence, valid.small, rfl⟩, format.sha256 (utf8 text), congrArg some hashed⟩

theorem stamp_of_mem_stamped {state : ChainState} (valid : state.Valid format)
    {events : List (AuditEvent Body)} {event : AuditEvent Body}
    (member : event ∈ stamped format state events) : Stamp event := by
  induction events generalizing state with
  | nil => cases member
  | cons first events ih =>
      rcases List.mem_cons.mp member with rfl | later
      · exact valid.stamp first
      · exact ih (ChainState.valid_link _ first) later

@[simp] theorem extended_nil (file : Option Bytes) : extended file [] = file := rfl

theorem extended_append (file : Option Bytes) (first second : List String) :
    extended file (first ++ second) = extended (extended file first) second := by
  cases first with
  | nil => rfl
  | cons line first =>
      cases second with
      | nil => simp
      | cons other second => simp [extended, logBytes]

theorem record_eq (state : ChainState) (file : Option Bytes) (event : AuditEvent Body) :
    IntegrityChainSink.record format state file event =
      ((state.link format event).2,
        extended file [format.serialize (state.link format event).1]) := by
  simp [IntegrityChainSink.record, FileAuditSink.record, extended, logBytes]

/-- A sink appends its events to the file, stamped. -/
theorem recordAll_eq (state : ChainState) (file : Option Bytes) (events : List (AuditEvent Body)) :
    recordAll format state file events =
      (stateAfter format state events,
        extended file ((stamped format state events).map format.serialize)) := by
  induction events generalizing state file with
  | nil => rfl
  | cons event events ih =>
      rw [recordAll, record_eq]
      dsimp only
      rw [ih, ← extended_append]
      rfl

theorem processRun_eq (file : Option Bytes) (events : List (AuditEvent Body)) :
    processRun format file events =
      extended file ((stamped format (.new format) events).map format.serialize) := by
  rw [processRun, recordAll_eq]

/-- The events that a sequence of processes writes. -/
def writtenBy (format : LogFormat Body) (runs : List (List (AuditEvent Body))) :
    List (AuditEvent Body) :=
  runs.flatMap (stamped format (.new format))

/-- The log after some processes has their events, one process after the other. -/
theorem afterRuns_eq (runs : List (List (AuditEvent Body))) :
    afterRuns format runs = extended none ((writtenBy format runs).map format.serialize) := by
  have general : ∀ file, runs.foldl (processRun format) file =
      extended file ((writtenBy format runs).map format.serialize) := by
    induction runs with
    | nil => exact fun _ => rfl
    | cons run runs ih =>
        intro file
        rw [List.foldl_cons, ih, processRun_eq, ← extended_append, ← List.map_append]
        rfl
  exact general none

/-- A line of JSON is neither blank nor cut by the reader. -/
theorem LogFormat.Lawful.line (lawful : format.Lawful) {event : AuditEvent Body}
    (stamp : Stamp event) :
    (10 : UInt8) ∉ utf8 (format.serialize event) ∧
      (utf8 (format.serialize event)).getLast? ≠ some 13 ∧
      isBlank (format.serialize event) = false := by
  obtain ⟨inner, same⟩ := lawful.braced event stamp
  refine ⟨fun newline => lawful.oneLine event stamp (newline_of_mem_utf8 newline), ?_, ?_⟩
  · rw [same, utf8_append]
    rw [show utf8 "\x7d" = [125] from rfl, List.getLast?_concat]
    decide
  · rw [same, isBlank]
    simp [isWhitespace]

/-- A log is read back as it was written. -/
theorem eventLines_logBytes (lawful : format.Lawful) {events : List (AuditEvent Body)}
    (stamps : ∀ event ∈ events, Stamp event) :
    eventLines (logBytes (events.map format.serialize)) = events.map format.serialize := by
  have lines : rawLines (logBytes (events.map format.serialize)) =
      (events.map format.serialize).map utf8 := by
    induction events with
    | nil => rfl
    | cons event events ih =>
        obtain ⟨oneLine, unreturned, -⟩ := lawful.line (stamps event List.mem_cons_self)
        rw [List.map_cons, logBytes, List.flatMap_cons, ← logBytes, List.append_assoc,
          List.singleton_append, rawLines_cons oneLine unreturned,
          ih fun other member => stamps other (List.mem_cons_of_mem _ member)]
        rfl
  rw [eventLines, readable, lines, decodeWhile_map_utf8, List.filter_eq_self]
  intro line member
  obtain ⟨event, written, rfl⟩ := List.mem_map.mp member
  simp [(lawful.line (stamps event written)).2.2]

section Verifying

variable (format)

/-- The line has chain fields. -/
def chained (line : String) : Bool :=
  match format.parse line with
  | none => false
  | some event => (chainFields event).1.isSome && !(chainFields event).2.isEmpty

/-- The predecessor hash that a line names. -/
def linkOf (line : String) : String :=
  match format.parse line with
  | none => ""
  | some event => (chainFields event).2

end Verifying

/-- The digits that are printed of a hash. -/
theorem slice_hash (text : String) :
    slice (format.hash text) 16 = some (hexEncode ((format.sha256 (utf8 text)).1.take 8)) := by
  have digits : (hexBytes (format.sha256 (utf8 text)).1).take 16 =
      hexBytes ((format.sha256 (utf8 text)).1.take 8) := by
    obtain ⟨digest, length⟩ := format.sha256 (utf8 text)
    have split : hexBytes digest = hexBytes (digest.take 8) ++ hexBytes (digest.drop 8) := by
      rw [← hexBytes_append, List.take_append_drop]
    have short : (hexBytes (digest.take 8)).length = 16 := by
      rw [hexBytes_length, List.length_take, length]
      rfl
    rw [split, ← short, List.take_left]
  rw [slice, LogFormat.hash, utf8_hexEncode, digits, ← utf8_hexEncode, decodeUtf8_utf8]

/-- The loop ends well exactly if every line is JSON and the chained lines are linked. It
counts all lines and shows the hash of the last chained one. -/
theorem verifyFrom_eq_intact_iff {index verified count : Nat} {expected digits : String}
    {lines : List String} :
    verifyFrom format index expected verified lines = .intact count digits ↔
      (∀ line ∈ lines, format.parse line ≠ none) ∧
      Linked format.hash (linkOf format) expected (lines.filter (chained format)) ∧
      count = verified + lines.length ∧
      slice (tip format.hash expected (lines.filter (chained format))) 16 = some digits := by
  induction lines generalizing index expected verified with
  | nil =>
      rw [verifyFrom]
      cases sliced : slice expected 16 with
      | none => simp [sliced]
      | some shown => simp [sliced, Linked, eq_comm]
  | cons line lines ih =>
      rw [verifyFrom]
      cases parsed : format.parse line with
      | none => simp [parsed]
      | some event =>
          have counts : verified + 1 + lines.length = verified + (line :: lines).length := by
            rw [List.length_cons]
            omega
          by_cases bare : (chainFields event).1.isNone ∨ (chainFields event).2.isEmpty
          · have passed : chained format line = false := by
              rcases bare with noSequence | noHash
              · simp [chained, parsed, Option.isNone_iff_eq_none.mp noSequence]
              · simp [chained, parsed, noHash]
            simp only [if_pos bare, ih, counts, List.filter_cons, passed, List.forall_mem_cons,
              parsed]
            simp
          · have found : chained format line = true := by
              rw [not_or] at bare
              simp [chained, parsed, Option.isSome_iff_ne_none,
                Option.isNone_iff_eq_none.not.mp bare.1,
                bare.2]
            have names : linkOf format line = (chainFields event).2 := by
              simp [linkOf, parsed]
            dsimp only
            rw [if_neg bare, List.filter_cons, if_pos found, Linked, names, tip_cons,
              List.forall_mem_cons]
            by_cases linked : (chainFields event).2 = expected
            · rw [if_neg (not_not.mpr linked), ih, counts]
              simp [parsed, linked]
            · rw [if_pos linked]
              split
              · simp [linked]
              · simp [linked]

/-- The loop is left only with a verdict on the lines. -/
theorem verifyFrom_ne_empty {index verified : Nat} {expected : String} {lines : List String} :
    verifyFrom format index expected verified lines ≠ .empty := by
  induction lines generalizing index expected verified with
  | nil =>
      rw [verifyFrom]
      split <;> simp
  | cons line lines ih =>
      rw [verifyFrom]
      split
      · simp
      · dsimp only
        split
        · exact ih
        · split
          · split <;> simp
          · exact ih

theorem Report.intact_of_accepts {report : Report} (accepts : report.Accepts)
    (nonempty : report ≠ .empty) : ∃ count digits, report = .intact count digits := by
  cases report with
  | intact count digits => exact ⟨count, digits, rfl⟩
  | empty => exact absurd rfl nonempty
  | notFound => cases accepts
  | invalidJson event verified => cases accepts
  | broken event sequence expected got verified => cases accepts
  | panicked => cases accepts

/-- The chained lines of an accepted log are linked. -/
theorem linked_of_accepts {file : Bytes} (accepts : (cmdVerifyChain format (some file)).Accepts) :
    HashChain.Linked format.hash (linkOf format) format.genesis
      ((eventLines file).filter (chained format)) := by
  rw [cmdVerifyChain] at accepts
  split at accepts
  · rename_i silent
    rw [List.isEmpty_iff.mp silent]
    trivial
  · obtain ⟨count, digits, intact⟩ := Report.intact_of_accepts accepts verifyFrom_ne_empty
    exact (verifyFrom_eq_intact_iff.mp intact).2.1

/-- The sequence number of a line. -/
def sequenceOf (format : LogFormat Body) (line : String) : Option Nat :=
  (format.parse line).bind fun event => (chainFields event).1

theorem hexEncode_isEmpty (digest : SizedBytes 32) : (hexEncode digest.1).isEmpty = false := by
  rw [Bool.eq_false_iff, ne_eq, String.isEmpty_iff]
  intro empty
  have bytes := utf8_hexEncode digest.1
  rw [empty] at bytes
  have length := congrArg List.length bytes
  rw [hexBytes_length, digest.2] at length
  cases length

/-- How the verifier reads a line that a sink wrote. -/
structure ReadsAs (format : LogFormat Body) (event : AuditEvent Body) : Prop where
  parses : format.parse (format.serialize event) ≠ none
  chained : chained format (format.serialize event) = true
  sequence : sequenceOf format (format.serialize event) = event.sequence
  link : some (linkOf format (format.serialize event)) = event.prevHash

theorem Stamp.readsAs (lawful : format.Lawful) {event : AuditEvent Body}
    (stamp : Stamp event) : ReadsAs format event := by
  obtain ⟨sequence, -, isSequence⟩ := stamp.sequence
  obtain ⟨digest, isHash⟩ := stamp.prevHash
  obtain ⟨value, parsed, sequenceField, hashField⟩ := lawful.fields event stamp
  rw [isSequence] at sequenceField
  rw [isHash] at hashField
  refine ⟨by simp [parsed], ?_, ?_, ?_⟩
  · simp [Audit.chained, parsed, chainFields, sequenceField, hashField, hexEncode_isEmpty]
  · simp [sequenceOf, parsed, chainFields, sequenceField, isSequence]
  · simp [linkOf, parsed, chainFields, hashField, isHash]

/-- Every line of a sink has chain fields. -/
theorem filter_chained_stamped (lawful : format.Lawful) {state : ChainState}
    (valid : state.Valid format) (events : List (AuditEvent Body)) :
    ((stamped format state events).map format.serialize).filter (chained format) =
      (stamped format state events).map format.serialize := by
  rw [List.filter_eq_self]
  intro line member
  obtain ⟨event, written, rfl⟩ := List.mem_map.mp member
  exact ((stamp_of_mem_stamped valid written).readsAs lawful).chained

/-- The lines of a sink are linked. -/
theorem stamped_linked (lawful : format.Lawful) {state : ChainState} (valid : state.Valid format)
    (events : List (AuditEvent Body)) :
    Linked format.hash (linkOf format) state.prevHash
      ((stamped format state events).map format.serialize) := by
  induction events generalizing state with
  | nil => exact trivial
  | cons event events ih =>
      have reads := (valid.stamp event).readsAs lawful
      refine ⟨?_, ih (ChainState.valid_link state event)⟩
      exact Option.some.inj reads.link

/-- The verifier accepts what one sink wrote, with as many events as it recorded. -/
theorem cmdVerifyChain_stamped (lawful : format.Lawful) {events : List (AuditEvent Body)}
    (recorded : events ≠ []) :
    ∃ digits, cmdVerifyChain format
        (some (logBytes ((stamped format (.new format) events).map format.serialize))) =
      .intact events.length digits := by
  have valid := ChainState.valid_new format
  have written : stamped format (.new format) events ≠ [] := by
    rw [← List.length_pos_iff, stamped_length]
    exact List.length_pos_iff.mpr recorded
  obtain ⟨text, shown⟩ : ∃ text, tip format.hash format.genesis
      ((stamped format (.new format) events).map format.serialize) = format.hash text := by
    obtain ⟨before, last, same⟩ := (List.eq_nil_or_concat _).resolve_left written
    rw [same, List.concat_eq_append, List.map_append, List.map_singleton, tip_snoc]
    exact ⟨_, rfl⟩
  refine ⟨hexEncode ((format.sha256 (utf8 text)).1.take 8), ?_⟩
  rw [cmdVerifyChain, eventLines_logBytes lawful fun _ => stamp_of_mem_stamped valid]
  rw [if_neg (by simpa using written), verifyFrom_eq_intact_iff,
    filter_chained_stamped lawful valid, shown, slice_hash]
  refine ⟨?_, stamped_linked lawful valid events, by simp, rfl⟩
  intro line member
  obtain ⟨event, written, rfl⟩ := List.mem_map.mp member
  exact ((stamp_of_mem_stamped valid written).readsAs lawful).parses

end Citadel.Audit
