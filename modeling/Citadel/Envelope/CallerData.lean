import Citadel.Envelope.WireV2

/-!
# The data that callers bind

Services build the context and the associated data of their messages from named fields. Every
field stands behind its length, so neither delimiters nor lengths inside a field can be taken
for those between fields. The context cuts off what a 16-bit length cannot say; `seal` refuses
contexts long before that.
-/

namespace Citadel.Envelope

/-- `MsgId16`. -/
abbrev MsgId16 := SizedBytes 16

def contextPrefix : Bytes := utf8 "citadel|ctx|v1|"
def aadPrefix : Bytes := utf8 "citadel|aad|v1"

/-- `AadTlvType`. -/
inductive AadTlvType where
  | senderId
  | recipientId
  | route
  | timestampUnixMs
  | sequence
  | msgId16
  deriving DecidableEq, Repr

/-- The byte of a field type. -/
def AadTlvType.code : AadTlvType → UInt8
  | .senderId => 0x01
  | .recipientId => 0x02
  | .route => 0x03
  | .timestampUnixMs => 0x04
  | .sequence => 0x05
  | .msgId16 => 0x06

/-- The longest field of a 16-bit length (`u16::MAX`). -/
def maxFieldLen : Nat := 2 ^ 16 - 1

/-- `build_context`: what does not fit a field is cut off. -/
def buildContext (env purpose : String) : Bytes :=
  let envBytes := (utf8 env).take (min (utf8 env).length maxFieldLen)
  let purposeBytes := (utf8 purpose).take (min (utf8 purpose).length maxFieldLen)
  contextPrefix ++ beBytes 2 envBytes.length ++ envBytes ++ beBytes 2 purposeBytes.length ++
    purposeBytes

/-- `push_tlv`. -/
def pushTlv (out : Bytes) (type : AadTlvType) (value : Bytes) : Except EncodingError Bytes :=
  if maxFieldLen < value.length then .error ⟨⟩
  else .ok (out ++ [type.code] ++ beBytes 2 value.length ++ value)

/-- `build_aad`. -/
def buildAad (senderId recipientId route : String) (tsUnixMs seq : UInt64) (msgId : MsgId16) :
    Except EncodingError Bytes := do
  let out := aadPrefix
  let out ← pushTlv out .senderId (utf8 senderId)
  let out ← pushTlv out .recipientId (utf8 recipientId)
  let out ← pushTlv out .route (utf8 route)
  let out ← pushTlv out .timestampUnixMs (beBytes 8 tsUnixMs.toNat)
  let out ← pushTlv out .sequence (beBytes 8 seq.toNat)
  pushTlv out .msgId16 msgId.1

/-- A context that `seal` takes has both its fields whole. -/
theorem buildContext_eq {env purpose : String}
    (fits : (buildContext env purpose).length ≤ WireV2.maxContextLen) :
    buildContext env purpose =
        contextPrefix ++ (framed 2 (utf8 env) ++ (framed 2 (utf8 purpose) ++ [])) ∧
      (utf8 env).length < 256 ^ 2 ∧ (utf8 purpose).length < 256 ^ 2 := by
  have whole : (utf8 env).length ≤ maxFieldLen ∧ (utf8 purpose).length ≤ maxFieldLen := by
    simp only [buildContext, List.length_append, List.length_take, WireV2.maxContextLen] at fits
    simp only [maxFieldLen] at fits ⊢
    omega
  have envWhole : (utf8 env).take (min (utf8 env).length maxFieldLen) = utf8 env :=
    List.take_of_length_le (by omega)
  have purposeWhole : (utf8 purpose).take (min (utf8 purpose).length maxFieldLen) = utf8 purpose :=
    List.take_of_length_le (by omega)
  simp only [maxFieldLen] at whole
  refine ⟨?_, by omega, by omega⟩
  simp only [buildContext, envWhole, purposeWhole, framed, List.append_assoc, List.append_nil]

theorem pushTlv_eq_ok {out value result : Bytes} {type : AadTlvType}
    (pushed : pushTlv out type value = .ok result) :
    value.length < 256 ^ 2 ∧ result = out ++ (type.code :: framed 2 value) := by
  obtain ⟨fits, written⟩ := Except.of_guard_eq_ok pushed
  cases written
  constructor
  · simp only [maxFieldLen] at fits
    omega
  · simp only [framed, List.append_assoc, List.cons_append, List.nil_append]

/-- A field at the front is determined, and so is what follows it. -/
theorem tlv_append_inj {type : AadTlvType} {left right leftRest rightRest : Bytes}
    (leftFits : left.length < 256 ^ 2) (rightFits : right.length < 256 ^ 2)
    (same : type.code :: (framed 2 left ++ leftRest) = type.code :: (framed 2 right ++ rightRest)) :
    left = right ∧ leftRest = rightRest :=
  framed_append_inj leftFits rightFits (List.cons.inj same).2

/-- The fields of the associated data, one behind the other. -/
theorem buildAad_eq_ok {senderId recipientId route : String} {tsUnixMs seq : UInt64}
    {msgId : MsgId16} {aad : Bytes}
    (built : buildAad senderId recipientId route tsUnixMs seq msgId = .ok aad) :
    ((utf8 senderId).length < 256 ^ 2 ∧ (utf8 recipientId).length < 256 ^ 2 ∧
        (utf8 route).length < 256 ^ 2) ∧
      aad = aadPrefix ++ (AadTlvType.senderId.code :: (framed 2 (utf8 senderId) ++
        (AadTlvType.recipientId.code :: (framed 2 (utf8 recipientId) ++
        (AadTlvType.route.code :: (framed 2 (utf8 route) ++
        (AadTlvType.timestampUnixMs.code :: (framed 2 (beBytes 8 tsUnixMs.toNat) ++
        (AadTlvType.sequence.code :: (framed 2 (beBytes 8 seq.toNat) ++
        (AadTlvType.msgId16.code :: (framed 2 msgId.1 ++ [])))))))))))) := by
  obtain ⟨_, sender, built⟩ := Except.of_bind_eq_ok built
  obtain ⟨_, recipient, built⟩ := Except.of_bind_eq_ok built
  obtain ⟨_, routed, built⟩ := Except.of_bind_eq_ok built
  obtain ⟨_, stamped, built⟩ := Except.of_bind_eq_ok built
  obtain ⟨_, numbered, built⟩ := Except.of_bind_eq_ok built
  obtain ⟨senderFits, rfl⟩ := pushTlv_eq_ok sender
  obtain ⟨recipientFits, rfl⟩ := pushTlv_eq_ok recipient
  obtain ⟨routeFits, rfl⟩ := pushTlv_eq_ok routed
  obtain ⟨-, rfl⟩ := pushTlv_eq_ok stamped
  obtain ⟨-, rfl⟩ := pushTlv_eq_ok numbered
  obtain ⟨-, rfl⟩ := pushTlv_eq_ok built
  refine ⟨⟨senderFits, recipientFits, routeFits⟩, ?_⟩
  simp only [List.append_assoc, List.cons_append, List.append_nil]

/-- A 64-bit number is determined by its bytes. -/
theorem beBytes_toNat_inj {left right : UInt64}
    (same : beBytes 8 left.toNat = beBytes 8 right.toNat) : left = right := by
  apply UInt64.toNat_inj.mp
  exact beBytes_inj left.toNat_lt right.toNat_lt same

/-- Contexts that `seal` takes and associated data that could be built are determined field by
field, whatever the fields contain. -/
theorem caller_data_injective :
    (∀ env purpose env' purpose',
        (buildContext env purpose).length ≤ WireV2.maxContextLen →
        (buildContext env' purpose').length ≤ WireV2.maxContextLen →
        buildContext env purpose = buildContext env' purpose' → env = env' ∧ purpose = purpose') ∧
      ∀ senderId recipientId route tsUnixMs seq msgId senderId' recipientId' route' tsUnixMs' seq'
        msgId' aad,
        buildAad senderId recipientId route tsUnixMs seq msgId = .ok aad →
        buildAad senderId' recipientId' route' tsUnixMs' seq' msgId' = .ok aad →
        senderId = senderId' ∧ recipientId = recipientId' ∧ route = route' ∧
          tsUnixMs = tsUnixMs' ∧ seq = seq' ∧ msgId = msgId' := by
  constructor
  · intro env purpose env' purpose' fits fits' same
    obtain ⟨shape, envFits, purposeFits⟩ := buildContext_eq fits
    obtain ⟨shape', envFits', purposeFits'⟩ := buildContext_eq fits'
    rw [shape, shape'] at same
    obtain ⟨envs, rest⟩ := framed_append_inj envFits envFits' (List.append_cancel_left same)
    obtain ⟨purposes, -⟩ := framed_append_inj purposeFits purposeFits' rest
    exact ⟨utf8_injective envs, utf8_injective purposes⟩
  · intro senderId recipientId route tsUnixMs seq msgId senderId' recipientId' route' tsUnixMs'
      seq' msgId' aad built built'
    obtain ⟨⟨senderFits, recipientFits, routeFits⟩, rfl⟩ := buildAad_eq_ok built
    obtain ⟨⟨senderFits', recipientFits', routeFits'⟩, same⟩ := buildAad_eq_ok built'
    have number : ∀ value : UInt64, (beBytes 8 value.toNat).length < 256 ^ 2 := by simp
    have sized : ∀ id : MsgId16, id.1.length < 256 ^ 2 := by simp
    obtain ⟨senders, rest⟩ := tlv_append_inj senderFits senderFits' (List.append_cancel_left same)
    obtain ⟨recipients, rest⟩ := tlv_append_inj recipientFits recipientFits' rest
    obtain ⟨routes, rest⟩ := tlv_append_inj routeFits routeFits' rest
    obtain ⟨stamps, rest⟩ := tlv_append_inj (number _) (number _) rest
    obtain ⟨numbers, rest⟩ := tlv_append_inj (number _) (number _) rest
    obtain ⟨ids, -⟩ := tlv_append_inj (sized _) (sized _) rest
    exact ⟨utf8_injective senders, utf8_injective recipients, utf8_injective routes,
      beBytes_toNat_inj stamps, beBytes_toNat_inj numbers, Subtype.ext ids⟩

/-- Delimiters inside the fields do not move the border between them. -/
theorem caller_data_apart :
    buildContext "prod" "email|notify" ≠ buildContext "prod|email" "notify" ∧
      buildAad "a" "bc" "r" 0 0 (.zeros 16) ≠ buildAad "ab" "c" "r" 0 0 (.zeros 16) := by
  obtain ⟨contexts, aads⟩ := caller_data_injective
  constructor
  · intro same
    obtain ⟨env, -⟩ := contexts "prod" "email|notify" "prod|email" "notify" (by decide) (by decide)
      same
    exact absurd env (by decide)
  · intro same
    obtain ⟨aad, built⟩ : ∃ aad, buildAad "a" "bc" "r" 0 0 (.zeros 16) = .ok aad := ⟨_, rfl⟩
    obtain ⟨sender, -⟩ := aads _ _ _ _ _ _ _ _ _ _ _ _ aad built (same ▸ built)
    exact absurd sender (by decide)

end Citadel.Envelope
