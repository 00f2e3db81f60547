import Citadel.Audit.Chain
import Citadel.Audit.PlainFormat

/-!
# What an accepted log proves

A log that the verifier accepts with the count and the last hash of a genuine one has the
same events. Lines without chain fields are passed over but counted, so none can be added
unnoticed. The reader stops at the first line that is no text, however, and the verifier
never learns that there was more. It prints a part of the last hash only: a chain with
another hash at its end that is printed alike passes for the genuine one.
-/

namespace Citadel.Audit

open HashChain

variable {Body : Type} {format : LogFormat Body} {events : List (AuditEvent Body)} {file : Bytes}
  {count : Nat}

/-- No two of the texts have the same hash. -/
def CollisionFree (format : LogFormat Body) (texts : List String) : Prop :=
  ∀ left ∈ texts, ∀ right ∈ texts,
    format.sha256 (utf8 left) = format.sha256 (utf8 right) → left = right

/-- The lines that one sink writes for events. -/
def genuineLines (format : LogFormat Body) (events : List (AuditEvent Body)) : List String :=
  (stamped format (.new format) events).map format.serialize

/-- The verifier accepts the file, and reports the same as for the first events of the
genuine log. -/
def Vouched (format : LogFormat Body) (events : List (AuditEvent Body)) (count : Nat)
    (file : Bytes) : Prop :=
  count ≤ events.length ∧ ∃ digits, cmdVerifyChain format (some file) = .intact count digits ∧
    cmdVerifyChain format (processRun format none (events.take count)) = .intact count digits

/-- The line is text, and blank. -/
def isBlankLine (line : Bytes) : Bool :=
  (decodeUtf8 line).elim false isBlank

/-- The file consists of the first events of the genuine log and of blank lines. -/
def Genuine (format : LogFormat Body) (events : List (AuditEvent Body)) (count : Nat)
    (file : Bytes) : Prop :=
  (rawLines file).filter (fun line => !isBlankLine line) =
    (genuineLines format (events.take count)).map utf8

/-- Every line of the file is text. -/
def Decodable (file : Bytes) : Prop :=
  ∀ line ∈ rawLines file, decodeUtf8 line ≠ none

/-- The hash at the end of a chain. -/
def lastHash (format : LogFormat Body) (lines : List String) : String :=
  tip format.hash format.genesis (lines.filter (chained format))

/-- The file is a chain as long as some first events of the genuine log. The hashes at the
ends of the two are different, but agree in the 16 digits that are printed. -/
structure PrintedAlike (format : LogFormat Body) (events : List (AuditEvent Body))
    (file : Bytes) (count : Nat) : Prop where
  length : (eventLines file).length = count
  parses : ∀ line ∈ eventLines file, format.parse line ≠ none
  linked : Linked format.hash (linkOf format) format.genesis
    ((eventLines file).filter (chained format))
  differ : lastHash format (eventLines file) ≠
    lastHash format (genuineLines format (events.take count))
  printed : slice (lastHash format (eventLines file)) 16 =
    slice (lastHash format (genuineLines format (events.take count))) 16

/-! ### Reading -/

/-- Of a file that is all text, the verifier sees every line that is not blank. -/
theorem eventLines_of_decodable (decodable : Decodable file) :
    (rawLines file).filter (fun line => !isBlankLine line) = (eventLines file).map utf8 := by
  obtain ⟨rest, cut, undecodable⟩ := eq_decodeWhile_append (rawLines file)
  obtain rfl : rest = [] := by
    cases rest with
    | nil => rfl
    | cons line rest =>
        have member : line ∈ rawLines file := by
          rw [cut]
          simp
        exact absurd (undecodable line rfl) (decodable line member)
  rw [cut, List.append_nil, List.filter_map, eventLines, readable]
  congr 1
  apply List.filter_congr
  intro text _
  simp [isBlankLine]

/-- A genuine file is all text. -/
theorem Genuine.decodable (genuine : Genuine format events count file) : Decodable file := by
  intro line member undecodable
  have kept : line ∈ (rawLines file).filter (fun line => !isBlankLine line) := by
    rw [List.mem_filter]
    exact ⟨member, by simp [isBlankLine, undecodable]⟩
  rw [genuine] at kept
  obtain ⟨text, -, rfl⟩ := List.mem_map.mp kept
  rw [decodeUtf8_utf8] at undecodable
  cases undecodable

/-! ### Verifying -/

theorem cmdVerifyChain_eq_intact_iff {digits : String} :
    cmdVerifyChain format (some file) = .intact count digits ↔
      eventLines file ≠ [] ∧
        verifyFrom format 0 format.genesis 0 (eventLines file) = .intact count digits := by
  rw [cmdVerifyChain]
  split
  · rename_i silent
    simp [List.isEmpty_iff.mp silent]
  · rename_i lines
    simp only [List.isEmpty_iff] at lines
    simp [lines]

theorem genuineLines_eq_nil_iff : genuineLines format events = [] ↔ events = [] := by
  rw [genuineLines, List.map_eq_nil_iff, ← List.length_eq_zero_iff, stamped_length,
    List.length_eq_zero_iff]

/-- What the verifier says about a genuine log. -/
theorem cmdVerifyChain_genuine_iff (lawful : format.Lawful) {digits : String} :
    cmdVerifyChain format (processRun format none events) = .intact count digits ↔
      genuineLines format events ≠ [] ∧
        verifyFrom format 0 format.genesis 0 (genuineLines format events) = .intact count digits := by
  rw [processRun_eq, extended, ← genuineLines]
  split
  · rename_i silent
    simp [silent, cmdVerifyChain]
  · rw [cmdVerifyChain_eq_intact_iff, Option.getD_none, List.nil_append, genuineLines,
      eventLines_logBytes lawful fun _ => stamp_of_mem_stamped (ChainState.valid_new format)]

section Collisions

variable {texts : List String}

theorem CollisionFree.eq_of_hash (free : CollisionFree format texts) {left right : String}
    (isLeft : left ∈ texts) (isRight : right ∈ texts)
    (same : format.hash left = format.hash right) : left = right :=
  free left isLeft right isRight (Subtype.ext (hexEncode_injective same))

/-- A chained line is not the text behind the genesis hash. -/
theorem CollisionFree.hash_ne_genesis (free : CollisionFree format texts) (lawful : format.Lawful)
    (genesis : genesisText ∈ texts) {line : String} (isLine : line ∈ texts)
    (isChained : chained format line = true) : format.hash line ≠ format.genesis := by
  intro same
  rw [free.eq_of_hash isLine genesis same, chained, lawful.genesis] at isChained
  cases isChained

end Collisions

theorem genuineLines_take (format : LogFormat Body) (events : List (AuditEvent Body))
    (count : Nat) : genuineLines format (events.take count) =
      (genuineLines format events).take count := by
  rw [genuineLines, stamped_take, List.map_take, genuineLines]

theorem genuineLines_chained (lawful : format.Lawful) :
    (genuineLines format events).filter (chained format) = genuineLines format events :=
  filter_chained_stamped lawful (ChainState.valid_new format) events

/-- The events that a vouched file shows are the genuine ones, or its last hash is another
one that is printed alike. -/
theorem Vouched.eventLines_eq (lawful : format.Lawful)
    (free : CollisionFree format (genesisText :: (genuineLines format events ++ eventLines file)))
    (vouched : Vouched format events count file) :
    eventLines file = genuineLines format (events.take count) ∨
      PrintedAlike format events file count := by
  obtain ⟨inside, digits, shown, expected⟩ := vouched
  obtain ⟨-, shown⟩ := cmdVerifyChain_eq_intact_iff.mp shown
  obtain ⟨-, expected⟩ := (cmdVerifyChain_genuine_iff lawful).mp expected
  obtain ⟨parses, shownLinked, shownCount, shownTip⟩ := verifyFrom_eq_intact_iff.mp shown
  obtain ⟨-, linked, -, expectedTip⟩ := verifyFrom_eq_intact_iff.mp expected
  rw [or_iff_not_imp_right]
  intro unlike
  have sameHash : lastHash format (eventLines file) =
      lastHash format (genuineLines format (events.take count)) := by
    by_contra differ
    exact unlike ⟨by omega, parses, shownLinked, differ, shownTip.trans expectedTip.symm⟩
  rw [lastHash, lastHash] at sameHash
  have isGenuine : ∀ line ∈ genuineLines format (events.take count),
      line ∈ genesisText :: (genuineLines format events ++ eventLines file) := by
    intro line member
    rw [genuineLines_take] at member
    simp [List.mem_of_mem_take member]
  have isShown : ∀ line ∈ (eventLines file).filter (chained format),
      line ∈ genesisText :: (genuineLines format events ++ eventLines file) := by
    intro line member
    simp [List.mem_of_mem_filter member]
  have same : (eventLines file).filter (chained format) =
      (genuineLines format (events.take count)).filter (chained format) := by
    apply eq_of_tip_eq shownLinked linked
    · intro left isLeft right isRight equal
      exact free.eq_of_hash (isShown left isLeft)
        (isGenuine right (List.mem_of_mem_filter isRight)) equal
    · intro left isLeft
      exact free.hash_ne_genesis lawful List.mem_cons_self (isShown left isLeft)
        (List.mem_filter.mp isLeft).2
    · intro right isRight
      exact free.hash_ne_genesis lawful List.mem_cons_self
        (isGenuine right (List.mem_of_mem_filter isRight)) (List.mem_filter.mp isRight).2
    · exact sameHash
  rw [genuineLines_chained lawful] at same
  -- A line that was passed over would have been counted.
  have length : ((eventLines file).filter (chained format)).length = (eventLines file).length := by
    rw [same, genuineLines_take, List.length_take, genuineLines, List.length_map, stamped_length]
    omega
  rw [← List.filter_eq_self.mpr (List.length_filter_eq_length_iff.mp length), same]

/-- A file that shows the first events of the genuine log is vouched for. -/
theorem vouched_of_eventLines (lawful : format.Lawful) (recorded : 0 < count)
    (inside : count ≤ events.length)
    (same : eventLines file = genuineLines format (events.take count)) :
    Vouched format events count file := by
  have taken : (events.take count).length = count := List.length_take_of_le inside
  have nonempty : events.take count ≠ [] := by
    rw [← List.length_pos_iff, taken]
    exact recorded
  obtain ⟨digits, intact⟩ := cmdVerifyChain_stamped lawful nonempty
  have lines : genuineLines format (events.take count) ≠ [] :=
    genuineLines_eq_nil_iff.not.mpr nonempty
  rw [taken, ← genuineLines, cmdVerifyChain_eq_intact_iff, genuineLines,
    eventLines_logBytes lawful fun _ => stamp_of_mem_stamped (ChainState.valid_new format),
    ← genuineLines] at intact
  refine ⟨inside, digits, ?_, ?_⟩
  · rw [cmdVerifyChain_eq_intact_iff, same]
    exact intact
  · rw [cmdVerifyChain_genuine_iff lawful]
    exact intact

/-- So is a chain whose last hash is printed alike. -/
theorem PrintedAlike.vouched (lawful : format.Lawful) (recorded : 0 < count)
    (inside : count ≤ events.length) (alike : PrintedAlike format events file count) :
    Vouched format events count file := by
  have genuine : eventLines (logBytes (genuineLines format (events.take count))) =
      genuineLines format (events.take count) :=
    eventLines_logBytes lawful fun _ => stamp_of_mem_stamped (ChainState.valid_new format)
  obtain ⟨-, digits, -, expected⟩ := vouched_of_eventLines lawful recorded inside genuine
  refine ⟨inside, digits, ?_, expected⟩
  obtain ⟨-, said⟩ := (cmdVerifyChain_genuine_iff lawful).mp expected
  obtain ⟨-, -, -, shown⟩ := verifyFrom_eq_intact_iff.mp said
  rw [cmdVerifyChain_eq_intact_iff, verifyFrom_eq_intact_iff]
  refine ⟨?_, alike.parses, alike.linked, by rw [alike.length, Nat.zero_add], ?_⟩
  · intro silent
    have length := alike.length
    rw [silent, List.length_nil] at length
    omega
  · exact alike.printed.trans shown

/-- Whatever the verifier vouches for is genuine exactly if all lines of the file are text or
what it shows before the first one that is not is no part of the genuine log, and if its
last hash is not one that only looks like that of the genuine log in print. -/
theorem vouched_genuine_iff (lawful : format.Lawful) (events : List (AuditEvent Body))
    (file : Bytes)
    (free : CollisionFree format (genesisText :: (genuineLines format events ++ eventLines file))) :
    (∀ count, Vouched format events count file → Genuine format events count file) ↔
      (Decodable file ∨ ∀ count, 0 < count → count ≤ events.length →
        eventLines file ≠ genuineLines format (events.take count)) ∧
      ∀ count, 0 < count → count ≤ events.length → ¬ PrintedAlike format events file count := by
  constructor
  · intro evident
    constructor
    · rw [or_iff_not_imp_right]
      intro shown
      push Not at shown
      obtain ⟨count, recorded, inside, same⟩ := shown
      exact (evident count (vouched_of_eventLines lawful recorded inside same)).decodable
    · intro count recorded inside alike
      have genuine := evident count (alike.vouched lawful recorded inside)
      have lines := eventLines_of_decodable genuine.decodable
      rw [genuine] at lines
      have same := List.map_injective_iff.mpr utf8_injective lines
      exact alike.differ (congrArg (lastHash format) same.symm)
  · rintro ⟨readable, unlike⟩ count vouched
    have ⟨inside, digits, intact, _⟩ := vouched
    obtain ⟨nonempty, said⟩ := cmdVerifyChain_eq_intact_iff.mp intact
    have recorded : 0 < count := by
      obtain ⟨-, -, counted, -⟩ := verifyFrom_eq_intact_iff.mp said
      rw [counted, Nat.zero_add]
      exact List.length_pos_iff.mpr nonempty
    have same := (vouched.eventLines_eq lawful free).resolve_right (unlike count recorded inside)
    rcases readable with decodable | shown
    · rw [Genuine, eventLines_of_decodable decodable, same]
    · exact absurd same (shown count recorded inside)

/-- One recorded event. -/
def loneEvent : List (AuditEvent Bool) := [⟨true, none, none⟩]

/-- The line of the event. -/
def loneLine : String := plainSerialize ⟨true, some 0, some plainFormat.genesis⟩

theorem genuineLines_lone : genuineLines plainFormat loneEvent = [loneLine] := rfl

/-- The line and the text behind the genesis hash do not collide. -/
theorem lone_collisionFree :
    CollisionFree plainFormat (genesisText :: (genuineLines plainFormat loneEvent ++ [loneLine])) := by
  have printed : (lengthHash (utf8 loneLine)).1.take 8 ≠
      (lengthHash (utf8 genesisText)).1.take 8 := by decide +kernel
  have texts : ∀ left ∈ genesisText :: (genuineLines plainFormat loneEvent ++ [loneLine]),
      left = genesisText ∨ left = loneLine := by
    intro left member
    simpa [genuineLines_lone] using member
  intro left isLeft right isRight same
  have digits : (lengthHash (utf8 left)).1.take 8 = (lengthHash (utf8 right)).1.take 8 :=
    congrArg (fun digest => digest.1.take 8) same
  rcases texts left isLeft with rfl | rfl
  · rcases texts right isRight with rfl | rfl
    · rfl
    · exact absurd digits.symm printed
  · rcases texts right isRight with rfl | rfl
    · exact absurd digits printed
    · rfl

/-- A genuine line is read as such, whatever follows. -/
theorem rawLines_loneLine (rest : Bytes) :
    rawLines (utf8 loneLine ++ 10 :: rest) = utf8 loneLine :: rawLines rest := by
  have stamp : Stamp (⟨true, some 0, some plainFormat.genesis⟩ : AuditEvent Bool) :=
    (ChainState.valid_new plainFormat).stamp ⟨true, none, none⟩
  obtain ⟨oneLine, unreturned, -⟩ := plainFormat_lawful.line stamp
  exact rawLines_cons oneLine unreturned

theorem isBlank_loneLine : isBlank loneLine = false :=
  (plainFormat_lawful.line ((ChainState.valid_new plainFormat).stamp ⟨true, none, none⟩)).2.2

/-- A log of one event is genuine if it is vouched for. -/
theorem lone_log_genuine :
    Genuine plainFormat loneEvent 1 (utf8 loneLine ++ [10]) := by
  have lines : rawLines (utf8 loneLine ++ [10]) = [utf8 loneLine] := rawLines_loneLine []
  have shown : eventLines (utf8 loneLine ++ [10]) = [loneLine] := by
    simp [eventLines, readable, lines, decodeWhile, isBlank_loneLine]
  have decodable : Decodable (utf8 loneLine ++ [10]) := by
    simp [Decodable, lines]
  have free := lone_collisionFree
  rw [← shown] at free
  have unlike : ∀ count, 0 < count → count ≤ loneEvent.length →
      ¬ PrintedAlike plainFormat loneEvent (utf8 loneLine ++ [10]) count := by
    intro count recorded inside alike
    obtain rfl : count = 1 := Nat.le_antisymm inside recorded
    exact alike.differ (congrArg (lastHash plainFormat) shown)
  apply (vouched_genuine_iff plainFormat_lawful loneEvent (utf8 loneLine ++ [10]) free).mpr
    ⟨.inl decodable, unlike⟩ 1
  exact vouched_of_eventLines plainFormat_lawful Nat.one_pos le_rfl shown

/-- A line that is no text, and a forged event after it. -/
def forgedRest : Bytes := 255 :: 10 :: (utf8 loneLine ++ [10])

/-- The verifier vouches for a genuine log that was extended by a forged event, after a
line that is no text. -/
theorem forged_log_vouched :
    CollisionFree plainFormat (genesisText :: (genuineLines plainFormat loneEvent ++
        eventLines (utf8 loneLine ++ 10 :: forgedRest))) ∧
      Vouched plainFormat loneEvent 1 (utf8 loneLine ++ 10 :: forgedRest) ∧
      ¬ Genuine plainFormat loneEvent 1 (utf8 loneLine ++ 10 :: forgedRest) := by
  have undecodable : decodeUtf8 [255] = none := by decide
  have lines : rawLines (utf8 loneLine ++ 10 :: forgedRest) =
      [utf8 loneLine, [255], utf8 loneLine] := by
    rw [rawLines_loneLine, forgedRest]
    have cut : rawLines ([255] ++ 10 :: (utf8 loneLine ++ [10])) =
        [255] :: rawLines (utf8 loneLine ++ [10]) := rawLines_cons (by decide) (by decide)
    rw [List.singleton_append] at cut
    rw [cut, rawLines_loneLine]
    rfl
  have shown : eventLines (utf8 loneLine ++ 10 :: forgedRest) = [loneLine] := by
    simp [eventLines, readable, lines, decodeWhile, undecodable, isBlank_loneLine]
  have free := lone_collisionFree
  rw [← shown] at free
  refine ⟨free, vouched_of_eventLines plainFormat_lawful Nat.one_pos le_rfl shown, ?_⟩
  intro genuine
  exact genuine.decodable [255] (by simp [lines]) undecodable

end Citadel.Audit
