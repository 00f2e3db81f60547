import Citadel.Data.Delimited
import Citadel.Envelope.Opening

/-!
# The typed constructors

The constructors of associated data and of contexts join a tag and their fields with bars. A tag
and a number contain no bar, a text may. So a call gives the bytes of another call exactly where
a bar inside one of its texts can be taken for one between fields.
-/

namespace Citadel.Envelope

/-! ### Associated data -/

/-- `Aad::for_storage`. -/
def Aad.forStorage (bucket objectId : String) (version : UInt64) : Aad :=
  ⟨utf8 s!"storage|{bucket}|{objectId}|v{version.toNat}"⟩

/-- `Aad::for_database`. -/
def Aad.forDatabase (table rowId column : String) : Aad :=
  ⟨utf8 s!"db|{table}|{rowId}|{column}"⟩

/-- `Aad::for_backup`. -/
def Aad.forBackup (system : String) (timestampUnix : UInt64) : Aad :=
  ⟨utf8 s!"backup|{system}|{timestampUnix.toNat}"⟩

/-- `Aad::for_message`. -/
def Aad.forMessage (sender recipient msgId : String) : Aad :=
  ⟨utf8 s!"msg|{sender}|{recipient}|{msgId}"⟩

/-- A call of a typed constructor of `Aad`. -/
inductive AadCall where
  | forStorage (bucket objectId : String) (version : UInt64)
  | forDatabase (table rowId column : String)
  | forBackup (system : String) (timestampUnix : UInt64)
  | forMessage (sender recipient msgId : String)
  deriving DecidableEq, Repr

namespace AadCall

/-- What a call returns. -/
def aad : AadCall → Aad
  | .forStorage bucket objectId version => Aad.forStorage bucket objectId version
  | .forDatabase table rowId column => Aad.forDatabase table rowId column
  | .forBackup system timestampUnix => Aad.forBackup system timestampUnix
  | .forMessage sender recipient msgId => Aad.forMessage sender recipient msgId

/-- No bar inside a text of the call can be taken for one between fields. The text of a backup
stands before the last bar of all. -/
def Unambiguous : AadCall → Prop
  | .forStorage bucket objectId _ => '|' ∉ bucket.toList ∧ '|' ∉ objectId.toList
  | .forDatabase table rowId column =>
      '|' ∉ table.toList ∧ '|' ∉ rowId.toList ∧ '|' ∉ column.toList
  | .forBackup _ _ => True
  | .forMessage sender recipient msgId =>
      '|' ∉ sender.toList ∧ '|' ∉ recipient.toList ∧ '|' ∉ msgId.toList

/-- The tag of a call. -/
def tag : AadCall → List Char
  | .forStorage .. => "storage".toList
  | .forDatabase .. => "db".toList
  | .forBackup .. => "backup".toList
  | .forMessage .. => "msg".toList

/-- What a call writes behind its tag. -/
def fields : AadCall → List (List Char)
  | .forStorage bucket objectId version =>
      [bucket.toList, objectId.toList, 'v' :: (toString version.toNat).toList]
  | .forDatabase table rowId column => [table.toList, rowId.toList, column.toList]
  | .forBackup system timestampUnix => [system.toList, (toString timestampUnix.toNat).toList]
  | .forMessage sender recipient msgId => [sender.toList, recipient.toList, msgId.toList]

/-- The text of a call. -/
def text (call : AadCall) : List Char :=
  call.tag ++ '|' :: ['|'].intercalate call.fields

theorem bar_not_mem_tag (call : AadCall) : '|' ∉ call.tag := by
  unfold tag
  split <;> simp

theorem aad_eq (call : AadCall) : call.aad = ⟨utf8 (String.ofList call.text)⟩ := by
  have written : ∀ text : String, text.toList = call.text →
      (⟨utf8 text⟩ : Aad) = ⟨utf8 (String.ofList call.text)⟩ := by
    intro text same
    rw [← same, String.ofList_toList]
  cases call with
  | forStorage bucket objectId version =>
      apply written
      simp only [text, fields, intercalate_triple, String.toList_append, List.append_assoc]
      rfl
  | forDatabase table rowId column =>
      apply written
      simp only [text, fields, intercalate_triple, String.toList_append, List.append_assoc]
      rfl
  | forBackup system timestampUnix =>
      apply written
      simp only [text, fields, intercalate_pair, String.toList_append, List.append_assoc]
      rfl
  | forMessage sender recipient msgId =>
      apply written
      simp only [text, fields, intercalate_triple, String.toList_append, List.append_assoc]
      rfl

/-- Calls with the same bytes wrote the same text. -/
theorem text_eq_of_aad {call other : AadCall} (same : other.aad = call.aad) :
    other.text = call.text := by
  rw [aad_eq, aad_eq] at same
  have texts := utf8_injective (congrArg Aad.inner same)
  simpa only [String.toList_ofList] using congrArg String.toList texts

/-- A call that writes no other bars than those between its fields is the only one with its
text. -/
theorem eq_of_text {call other : AadCall} (unambiguous : call.Unambiguous)
    (same : other.text = call.text) : other = call := by
  obtain ⟨tags, joined⟩ := separated_inj other.bar_not_mem_tag call.bar_not_mem_tag same
  cases call with
  | forStorage bucket objectId version =>
      cases other with
      | forStorage bucket' objectId' version' =>
          have number : '|' ∉ 'v' :: (toString version.toNat).toList :=
            List.not_mem_cons_of_ne_of_not_mem (by decide) (bar_not_mem_decimal _)
          obtain ⟨buckets, objects, versions⟩ :=
            intercalate_triple_inj ⟨unambiguous.1, unambiguous.2, number⟩ joined
          rw [String.toList_injective buckets, String.toList_injective objects,
            UInt64.toNat_inj.mp (decimal_text_inj (List.cons.inj versions).2)]
      | _ => exact absurd (String.toList_injective tags) (by decide)
  | forDatabase table rowId column =>
      cases other with
      | forDatabase table' rowId' column' =>
          obtain ⟨tables, rows, columns⟩ := intercalate_triple_inj unambiguous joined
          rw [String.toList_injective tables, String.toList_injective rows,
            String.toList_injective columns]
      | _ => exact absurd (String.toList_injective tags) (by decide)
  | forBackup system timestampUnix =>
      cases other with
      | forBackup system' timestampUnix' =>
          -- the number stands behind the last bar
          have cut : system'.toList ++ '|' :: (toString timestampUnix'.toNat).toList =
              system.toList ++ '|' :: (toString timestampUnix.toNat).toList := by
            simpa only [fields, intercalate_pair] using joined
          obtain ⟨systems, stamps⟩ := separated_last_inj (bar_not_mem_decimal _)
            (bar_not_mem_decimal _) cut
          rw [String.toList_injective systems, UInt64.toNat_inj.mp (decimal_text_inj stamps)]
      | _ => exact absurd (String.toList_injective tags) (by decide)
  | forMessage sender recipient msgId =>
      cases other with
      | forMessage sender' recipient' msgId' =>
          obtain ⟨senders, recipients, messages⟩ := intercalate_triple_inj unambiguous joined
          rw [String.toList_injective senders, String.toList_injective recipients,
            String.toList_injective messages]
      | _ => exact absurd (String.toList_injective tags) (by decide)

/-- A bar inside a text lets another call write the same. -/
theorem exists_other (call : AadCall) (ambiguous : ¬ call.Unambiguous) :
    ∃ other : AadCall, other ≠ call ∧ other.aad = call.aad := by
  have ofText : ∀ other : AadCall, other.text = call.text → other.aad = call.aad := by
    intro other same
    rw [aad_eq, aad_eq, same]
  cases call with
  | forStorage bucket objectId version =>
      have inside : '|' ∈ bucket.toList ∨ '|' ∈ objectId.toList := by
        simp only [Unambiguous] at ambiguous
        tauto
      obtain ⟨bucket', objectId', differs, cut⟩ := exists_other_cut inside
      refine ⟨.forStorage bucket' objectId' version, ?_, ofText _ ?_⟩
      · intro same
        exact differs (AadCall.forStorage.inj same).1
      · simp only [text, fields, intercalate_recut cut]
        rfl
  | forDatabase table rowId column =>
      obtain ⟨table', rowId', column', differs, joined⟩ := exists_other_triple ambiguous
      refine ⟨.forDatabase table' rowId' column', ?_, ofText _ ?_⟩
      · intro same
        obtain ⟨tables, rows, -⟩ := AadCall.forDatabase.inj same
        exact differs ⟨tables, rows⟩
      · simp only [text, fields, joined]
        rfl
  | forBackup system timestampUnix => exact absurd trivial ambiguous
  | forMessage sender recipient msgId =>
      obtain ⟨sender', recipient', msgId', differs, joined⟩ := exists_other_triple ambiguous
      refine ⟨.forMessage sender' recipient' msgId', ?_, ofText _ ?_⟩
      · intro same
        obtain ⟨senders, recipients, -⟩ := AadCall.forMessage.inj same
        exact differs ⟨senders, recipients⟩
      · simp only [text, fields, joined]
        rfl

/-- The bytes of a call are those of no other exactly if none of its bars is ambiguous. -/
theorem unambiguous_iff (call : AadCall) :
    call.Unambiguous ↔ ∀ other, other ≠ call → other.aad ≠ call.aad := by
  constructor
  · intro unambiguous other differs same
    exact differs (eq_of_text unambiguous (text_eq_of_aad same))
  · intro alone
    by_contra ambiguous
    obtain ⟨other, differs, same⟩ := call.exists_other ambiguous
    exact alone other differs same

end AadCall

/-! ### Contexts -/

/-- `Context::for_application`. -/
def Context.forApplication (appName environment : String) : Context :=
  ⟨utf8 s!"app|{appName}|{environment}"⟩

/-- `Context::for_backup`. -/
def Context.forBackup (system : String) (epoch : UInt32) : Context :=
  ⟨utf8 s!"backup|{system}|epoch{epoch.toNat}"⟩

/-- `Context::for_service`. -/
def Context.forService (source target protocolVersion : String) : Context :=
  ⟨utf8 s!"service|{source}|{target}|{protocolVersion}"⟩

/-- A call of a typed constructor of `Context`. -/
inductive ContextCall where
  | forApplication (appName environment : String)
  | forBackup (system : String) (epoch : UInt32)
  | forService (source target protocolVersion : String)
  | forSecrets (space keyId : String)
  deriving DecidableEq, Repr

namespace ContextCall

/-- What a call returns. -/
def context : ContextCall → Context
  | .forApplication appName environment => Context.forApplication appName environment
  | .forBackup system epoch => Context.forBackup system epoch
  | .forService source target protocolVersion => Context.forService source target protocolVersion
  | .forSecrets space keyId => Context.forSecrets space keyId

/-- No bar inside a text of the call can be taken for one between fields. -/
def Unambiguous : ContextCall → Prop
  | .forApplication appName environment => '|' ∉ appName.toList ∧ '|' ∉ environment.toList
  | .forBackup _ _ => True
  | .forService source target protocolVersion =>
      '|' ∉ source.toList ∧ '|' ∉ target.toList ∧ '|' ∉ protocolVersion.toList
  | .forSecrets space keyId => '|' ∉ space.toList ∧ '|' ∉ keyId.toList

/-- The tag of a call. -/
def tag : ContextCall → List Char
  | .forApplication .. => "app".toList
  | .forBackup .. => "backup".toList
  | .forService .. => "service".toList
  | .forSecrets .. => "secrets".toList

/-- What a call writes behind its tag. -/
def fields : ContextCall → List (List Char)
  | .forApplication appName environment => [appName.toList, environment.toList]
  | .forBackup system epoch => [system.toList, "epoch".toList ++ (toString epoch.toNat).toList]
  | .forService source target protocolVersion =>
      [source.toList, target.toList, protocolVersion.toList]
  | .forSecrets space keyId => [space.toList, keyId.toList]

/-- The text of a call. -/
def text (call : ContextCall) : List Char :=
  call.tag ++ '|' :: ['|'].intercalate call.fields

theorem bar_not_mem_tag (call : ContextCall) : '|' ∉ call.tag := by
  unfold tag
  split <;> simp

theorem context_eq (call : ContextCall) : call.context = ⟨utf8 (String.ofList call.text)⟩ := by
  have written : ∀ text : String, text.toList = call.text →
      (⟨utf8 text⟩ : Context) = ⟨utf8 (String.ofList call.text)⟩ := by
    intro text same
    rw [← same, String.ofList_toList]
  cases call with
  | forApplication appName environment =>
      apply written
      simp only [text, fields, intercalate_pair, String.toList_append, List.append_assoc]
      rfl
  | forBackup system epoch =>
      apply written
      simp only [text, fields, intercalate_pair, String.toList_append, List.append_assoc]
      rfl
  | forService source target protocolVersion =>
      apply written
      simp only [text, fields, intercalate_triple, String.toList_append, List.append_assoc]
      rfl
  | forSecrets space keyId =>
      apply written
      simp only [text, fields, intercalate_pair, String.toList_append, List.append_assoc]
      rfl

/-- Calls with the same bytes wrote the same text. -/
theorem text_eq_of_context {call other : ContextCall} (same : other.context = call.context) :
    other.text = call.text := by
  rw [context_eq, context_eq] at same
  have texts := utf8_injective (congrArg Context.inner same)
  simpa only [String.toList_ofList] using congrArg String.toList texts

theorem bar_not_mem_epoch (epoch : UInt32) :
    '|' ∉ "epoch".toList ++ (toString epoch.toNat).toList := by
  intro bar
  rcases List.mem_append.mp bar with word | number
  · simp at word
  · exact bar_not_mem_decimal _ number

/-- A call that writes no other bars than those between its fields is the only one with its
text. -/
theorem eq_of_text {call other : ContextCall} (unambiguous : call.Unambiguous)
    (same : other.text = call.text) : other = call := by
  obtain ⟨tags, joined⟩ := separated_inj other.bar_not_mem_tag call.bar_not_mem_tag same
  cases call with
  | forApplication appName environment =>
      cases other with
      | forApplication appName' environment' =>
          obtain ⟨apps, environments⟩ := intercalate_pair_inj unambiguous joined
          rw [String.toList_injective apps, String.toList_injective environments]
      | _ => exact absurd (String.toList_injective tags) (by decide)
  | forBackup system epoch =>
      cases other with
      | forBackup system' epoch' =>
          have cut : system'.toList ++ '|' :: ("epoch".toList ++ (toString epoch'.toNat).toList) =
              system.toList ++ '|' :: ("epoch".toList ++ (toString epoch.toNat).toList) := by
            simpa only [fields, intercalate_pair] using joined
          obtain ⟨systems, epochs⟩ := separated_last_inj (bar_not_mem_epoch _)
            (bar_not_mem_epoch _) cut
          have numbers := decimal_text_inj (List.append_cancel_left epochs)
          rw [String.toList_injective systems, UInt32.toNat_inj.mp numbers]
      | _ => exact absurd (String.toList_injective tags) (by decide)
  | forService source target protocolVersion =>
      cases other with
      | forService source' target' protocolVersion' =>
          obtain ⟨sources, targets, versions⟩ := intercalate_triple_inj unambiguous joined
          rw [String.toList_injective sources, String.toList_injective targets,
            String.toList_injective versions]
      | _ => exact absurd (String.toList_injective tags) (by decide)
  | forSecrets space keyId =>
      cases other with
      | forSecrets space' keyId' =>
          obtain ⟨spaces, keys⟩ := intercalate_pair_inj unambiguous joined
          rw [String.toList_injective spaces, String.toList_injective keys]
      | _ => exact absurd (String.toList_injective tags) (by decide)

/-- A bar inside a text lets another call write the same. -/
theorem exists_other (call : ContextCall) (ambiguous : ¬ call.Unambiguous) :
    ∃ other : ContextCall, other ≠ call ∧ other.context = call.context := by
  have ofText : ∀ other : ContextCall, other.text = call.text → other.context = call.context := by
    intro other same
    rw [context_eq, context_eq, same]
  cases call with
  | forApplication appName environment =>
      have inside : '|' ∈ appName.toList ∨ '|' ∈ environment.toList := by
        simp only [Unambiguous] at ambiguous
        tauto
      obtain ⟨appName', environment', differs, cut⟩ := exists_other_cut inside
      refine ⟨.forApplication appName' environment', ?_, ofText _ ?_⟩
      · intro same
        exact differs (ContextCall.forApplication.inj same).1
      · simp only [text, fields, intercalate_recut cut]
        rfl
  | forBackup system epoch => exact absurd trivial ambiguous
  | forService source target protocolVersion =>
      obtain ⟨source', target', protocolVersion', differs, joined⟩ :=
        exists_other_triple ambiguous
      refine ⟨.forService source' target' protocolVersion', ?_, ofText _ ?_⟩
      · intro same
        obtain ⟨sources, targets, -⟩ := ContextCall.forService.inj same
        exact differs ⟨sources, targets⟩
      · simp only [text, fields, joined]
        rfl
  | forSecrets space keyId =>
      have inside : '|' ∈ space.toList ∨ '|' ∈ keyId.toList := by
        simp only [Unambiguous] at ambiguous
        tauto
      obtain ⟨space', keyId', differs, cut⟩ := exists_other_cut inside
      refine ⟨.forSecrets space' keyId', ?_, ofText _ ?_⟩
      · intro same
        exact differs (ContextCall.forSecrets.inj same).1
      · simp only [text, fields, intercalate_recut cut]
        rfl

/-- The bytes of a call are those of no other exactly if none of its bars is ambiguous. -/
theorem unambiguous_iff (call : ContextCall) :
    call.Unambiguous ↔ ∀ other, other ≠ call → other.context ≠ call.context := by
  constructor
  · intro unambiguous other differs same
    exact differs (eq_of_text unambiguous (text_eq_of_context same))
  · intro alone
    by_contra ambiguous
    obtain ⟨other, differs, same⟩ := call.exists_other ambiguous
    exact alone other differs same

end ContextCall

/-! ### What opens -/

/-- Who opens a sealed envelope names the data and the context of the seal. -/
theorem names_of_open {crypto : Crypto} (lawful : crypto.Lawful)
    {coins : SealCoins EncapsulationCoins} {publicKey : PublicKey} {plaintext envelope : Bytes}
    {aad : Aad} {context : Context} {tuple : AeadTuple} (asSealed : crypto.OpensAsSealed tuple)
    (sealed : Envelope.seal crypto coins publicKey plaintext aad context = .ok envelope)
    (produced : WireV2.sealedTuple crypto (hybridX25519MlKem768Provider crypto) coins publicKey
      plaintext aad.inner context.inner = .ok tuple)
    {secretKey : SecretKey crypto} {other : Aad} {otherContext : Context} {opened : Bytes}
    (opens : Envelope.open crypto secretKey envelope other otherContext = .ok opened) :
    other = aad ∧ otherContext = context := by
  have magic := List.isPrefixOf_iff_prefix.mpr (WireV2.seal_magic sealed)
  obtain ⟨header, kemCt, -, bound, -⟩ := WireV2.seal_of_tuple sealed produced
  obtain ⟨parts, decoded, carried⟩ := WireV2.decode_of_tuple lawful
    (hybridX25519MlKem768Provider_lawful lawful) sealed produced
  simp only [Envelope.open, decrypt, magic, if_true] at opens
  obtain ⟨parts', sharedSecret, transcript, associated, decoded', -, -, -, bound', decrypted, -⟩ :=
    WireV2.open_eq_ok opens
  obtain rfl : parts = parts' := Except.ok.inj (decoded.symm.trans decoded')
  rw [carried] at decrypted
  obtain ⟨-, same⟩ := asSealed _ _ _ _ decrypted
  rw [same] at bound'
  obtain ⟨-, -, contexts, data⟩ := WireV2.associatedData_inj bound' bound
  exact ⟨congrArg Aad.mk data, congrArg Context.mk contexts⟩

/-- Nothing that is sealed with the data `aad` opens with the data `other`, over a cipher that
opens the ciphertext of the seal only as it was sealed. -/
def Aad.ClosedTo (aad other : Aad) : Prop :=
  ∀ (crypto : Crypto) (coins : SealCoins EncapsulationCoins) (publicKey : PublicKey)
    (plaintext envelope : Bytes) (context : Context) (tuple : AeadTuple), crypto.Lawful →
    crypto.OpensAsSealed tuple →
    Envelope.seal crypto coins publicKey plaintext aad context = .ok envelope →
    WireV2.sealedTuple crypto (hybridX25519MlKem768Provider crypto) coins publicKey plaintext
      aad.inner context.inner = .ok tuple →
    ∀ (secretKey : SecretKey crypto) (otherContext : Context) (opened : Bytes),
      Envelope.open crypto secretKey envelope other otherContext ≠ .ok opened

/-- Nothing that is sealed in a context opens in the context `other`. -/
def Context.ClosedTo (context other : Context) : Prop :=
  ∀ (crypto : Crypto) (coins : SealCoins EncapsulationCoins) (publicKey : PublicKey)
    (plaintext envelope : Bytes) (aad : Aad) (tuple : AeadTuple), crypto.Lawful →
    crypto.OpensAsSealed tuple →
    Envelope.seal crypto coins publicKey plaintext aad context = .ok envelope →
    WireV2.sealedTuple crypto (hybridX25519MlKem768Provider crypto) coins publicKey plaintext
      aad.inner context.inner = .ok tuple →
    ∀ (secretKey : SecretKey crypto) (otherAad : Aad) (opened : Bytes),
      Envelope.open crypto secretKey envelope otherAad other ≠ .ok opened

theorem Aad.closedTo_of_ne {aad other : Aad} (differ : other ≠ aad) : aad.ClosedTo other := by
  intro crypto coins publicKey plaintext envelope context tuple lawful asSealed sealed produced
    secretKey otherContext opened opens
  exact differ (names_of_open lawful asSealed sealed produced opens).1

theorem Context.closedTo_of_ne {context other : Context} (differ : other ≠ context) :
    context.ClosedTo other := by
  intro crypto coins publicKey plaintext envelope aad tuple lawful asSealed sealed produced
    secretKey otherAad opened opens
  exact differ (names_of_open lawful asSealed sealed produced opens).2

/-- A call of a typed constructor gives other bytes than every other call of its type, and what is
bound to it opens under no other, exactly if its texts hold no bar that can be taken for one
between fields. -/
theorem typed_call_separate (call : AadCall) (contextCall : ContextCall) :
    ((∀ other, other ≠ call → other.aad ≠ call.aad ∧ call.aad.ClosedTo other.aad) ↔
      call.Unambiguous) ∧
    ((∀ other, other ≠ contextCall → other.context ≠ contextCall.context ∧
      contextCall.context.ClosedTo other.context) ↔ contextCall.Unambiguous) := by
  constructor
  · constructor
    · intro separate
      apply call.unambiguous_iff.mpr
      intro other differs
      exact (separate other differs).1
    · intro unambiguous other differs
      have apart := call.unambiguous_iff.mp unambiguous other differs
      exact ⟨apart, Aad.closedTo_of_ne apart⟩
  · constructor
    · intro separate
      apply contextCall.unambiguous_iff.mpr
      intro other differs
      exact (separate other differs).1
    · intro unambiguous other differs
      have apart := contextCall.unambiguous_iff.mp unambiguous other differs
      exact ⟨apart, Context.closedTo_of_ne apart⟩

/-- An object of one bucket is bound as an object of another, and what is sealed for the one
opens for the other. -/
theorem storage_objects_collide :
    AadCall.forStorage "a|b" "c" 1 ≠ AadCall.forStorage "a" "b|c" 1 ∧
      (AadCall.forStorage "a|b" "c" 1).aad = (AadCall.forStorage "a" "b|c" 1).aad ∧
      ∀ (crypto : Crypto) (coins : SealCoins EncapsulationCoins) (secretKey : SecretKey crypto)
        (plaintext envelope : Bytes) (context : Context), crypto.Lawful →
        Envelope.seal crypto coins secretKey.publicKey plaintext
          (Aad.forStorage "a|b" "c" 1) context = .ok envelope →
        Envelope.open crypto secretKey envelope (Aad.forStorage "a" "b|c" 1) context =
          .ok plaintext := by
  have same : Aad.forStorage "a|b" "c" 1 = Aad.forStorage "a" "b|c" 1 := by
    decide
  refine ⟨by decide, same, ?_⟩
  intro crypto coins secretKey plaintext envelope context lawful sealed
  rw [← same]
  exact open_seal lawful sealed

end Citadel.Envelope
