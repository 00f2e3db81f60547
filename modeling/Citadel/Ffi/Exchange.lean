import Citadel.Envelope.Suites
import Citadel.Ffi.Results

/-!
# Across the interface

What one caller seals through the C interface another opens, with keys that a third was
handed. While the allocator has room, such an exchange runs to its end.
-/

namespace Citadel.Ffi

open Envelope Program

/-- What the interface needs of an engine: what is sealed to a key pair is opened, and the
byte forms of its keys are read back. -/
structure Engine.Lawful (engine : Engine) : Prop where
  crypto : engine.crypto.Lawful
  provider : engine.provider.Lawful
  keygen_pair : ∀ seed, engine.provider.publicKeyOf (engine.provider.keygen seed).2 =
    (engine.provider.keygen seed).1
  reads_publicKey : ∀ key, engine.publicKeyFromBytes
    (engine.provider.publicKeyBytes (engine.provider.publicKeyOf key)) =
      .ok (engine.provider.publicKeyOf key)
  reads_secretKey : ∀ key, engine.secretKeyFromBytes (engine.secretKeyToBytes key) = .ok key

section Engines

variable {crypto : Crypto} {nist : NistCrypto} {encodings : NistEncodings nist}

theorem citadel_lawful (lawful : crypto.Lawful) : (citadel crypto).Lawful where
  crypto := lawful
  provider := hybridX25519MlKem768Provider_lawful lawful
  keygen_pair := keygen_publicKey
  reads_publicKey := PublicKey.fromBytes_toBytes lawful
  reads_secretKey := SecretKey.fromBytes_toBytes lawful

theorem citadelP384_lawful (lawful : crypto.Lawful) (nistLawful : nist.Lawful)
    (encodes : encodings.Lawful) : (citadelP384 crypto encodings).Lawful where
  crypto := lawful
  provider := hybridP384MlKem1024Provider_lawful nistLawful
  keygen_pair _ := rfl
  reads_publicKey _ := P384MlKem1024PublicKey.fromBytes_toBytes nistLawful encodes _
  reads_secretKey := P384MlKem1024SecretKey.fromBytes_toBytes encodes

/-- The engine of a suite. -/
def engineOf (crypto : Crypto) {nist : NistCrypto} (encodings : NistEncodings nist) :
    Suite → Engine
  | .hybridX25519MlKem768 => citadel crypto
  | .hybridP384MlKem1024 => citadelP384 crypto encodings

theorem engineOf_lawful (lawful : crypto.Lawful) (nistLawful : nist.Lawful)
    (encodes : encodings.Lawful) (suite : Suite) : (engineOf crypto encodings suite).Lawful := by
  cases suite
  · exact citadel_lawful lawful
  · exact citadelP384_lawful lawful nistLawful encodes

end Engines

section Sealing

variable {engine : Engine}

/-- What was sealed to the public key of a pair is opened with its secret key. -/
theorem Engine.Lawful.opens (lawful : engine.Lawful) {seed : engine.provider.Seed}
    {coins : SealCoins engine.provider.Coins} {plaintext aad context envelope : Bytes}
    (sealed : sealComputes engine coins
      (engine.provider.publicKeyBytes (engine.provider.keygen seed).1) plaintext aad context =
        .ok envelope) :
    openComputes engine (engine.secretKeyToBytes (engine.provider.keygen seed).2) envelope aad
      context = .ok plaintext := by
  unfold sealComputes at sealed
  unfold openComputes
  rw [← lawful.keygen_pair, lawful.reads_publicKey] at sealed
  rw [lawful.reads_secretKey]
  simp only at sealed ⊢
  generalize encrypted : Envelope.encrypt engine.crypto engine.provider coins _ plaintext aad
    context = outcome at sealed
  cases outcome with
  | error error => cases sealed
  | ok ciphertext =>
      cases sealed
      have magic : WireV2.magic.isPrefixOf envelope = true :=
        List.isPrefixOf_iff_prefix.mpr (WireV2.seal_magic encrypted)
      have opened := WireV2.open_seal lawful.crypto lawful.provider encrypted
      rw [Envelope.decrypt, if_pos magic, opened]

/-- A result is one of what was computed. -/
theorem computes_of_mem {call : Call} {result : Slot × Bytes} (member : result ∈ call.results) :
    ∃ results, call.computes = .ok results ∧ result ∈ results := by
  unfold Call.results at member
  cases computed : call.computes with
  | error refusal =>
      rw [computed] at member
      cases member
  | ok results =>
      rw [computed] at member
      exact ⟨results, rfl, member⟩

/-- The results of a key generation are the byte forms of one pair. -/
theorem mem_results_keygen {seed : engine.provider.Seed} {outputs : KeygenOutputs}
    {result : Slot × Bytes} (member : result ∈ (Call.keygen engine seed outputs).results) :
    result = (.first, engine.provider.publicKeyBytes (engine.provider.keygen seed).1) ∨
      result = (.second, engine.secretKeyToBytes (engine.provider.keygen seed).2) := by
  obtain ⟨results, computes, inside⟩ := computes_of_mem member
  by_cases absent : outputs.present = false
  · cases (if_pos absent).symm.trans computes
  · cases (if_neg absent).symm.trans computes
    rcases List.mem_cons.mp inside with first | second
    · exact .inl first
    · exact .inr (List.mem_singleton.mp second)

/-- The result of a sealing is what was computed. -/
theorem mem_results_seal {coins : SealCoins engine.provider.Coins} {pk plaintext : Bytes}
    {aad context : Option Bytes} {outputs : BufferOutputs} {result : Slot × Bytes}
    (member : result ∈
      (Call.seal engine coins (some pk) (some plaintext) aad context outputs).results) :
    sealComputes engine coins pk plaintext (aad.getD []) (context.getD []) = .ok result.2 := by
  obtain ⟨results, computes, inside⟩ := computes_of_mem member
  by_cases absent : outputs.present = false
  · cases (if_pos absent).symm.trans computes
  · have mapped := (if_neg absent).symm.trans computes
    cases computed : sealComputes engine coins pk plaintext (aad.getD []) (context.getD []) with
    | error refusal =>
        rw [computed] at mapped
        cases mapped
    | ok ciphertext =>
        rw [computed] at mapped
        cases mapped
        rw [List.mem_singleton.mp inside]

variable {ι : Type} [DecidableEq ι] {arena : Arena} {memory : Memory} {calls : ι → Call}
  {trace : CallTrace ι} {pool : Callers ι}

/-- Across the interface, sealed data is opened: let one caller have been handed a key
pair, and another an envelope that it sealed to the public key. Then a third, which opens
that envelope with the secret key and equal associated data and context, is handed the
plaintext, or memory runs out and it is left with null, whatever the order of these calls
and whatever other callers do. -/
theorem sealed_is_opened {crypto : Crypto} {nist : NistCrypto} {encodings : NistEncodings nist}
    (lawful : crypto.Lawful) (nistLawful : nist.Lawful) (encodes : encodings.Lawful)
    (suite : Suite) (initial : memory.Initial)
    (runs : Pool.Runs (heap arena (ownerFrees arena)) (callers memory calls) trace pool)
    {owner sender recipient : ι} {seed : (engineOf crypto encodings suite).provider.Seed}
    {coins : SealCoins (engineOf crypto encodings suite).provider.Coins}
    {pk sk plaintext envelope : Bytes} {aad context aad' context' : Option Bytes}
    {keyOutputs : KeygenOutputs} {sealOutputs openOutputs : BufferOutputs} {status : Status}
    (generates : calls owner = .keygen (engineOf crypto encodings suite) seed keyOutputs)
    (seals : calls sender = .seal (engineOf crypto encodings suite) coins (some pk)
      (some plaintext) aad context sealOutputs)
    (opens : calls recipient = .open (engineOf crypto encodings suite) (some sk) (some envelope)
      aad' context' openOutputs)
    (sameAad : aad'.getD [] = aad.getD []) (sameContext : context'.getD [] = context.getD [])
    (present : openOutputs.present = true) (handedPk : HandedOver trace owner .first pk)
    (handedSk : HandedOver trace owner .second sk)
    (handedEnvelope : HandedOver trace sender .first envelope)
    (returned : Returned trace recipient (.ok status)) :
    status = .ok ∧ (outputsOf trace recipient).Holds (.first, plaintext) ∧
        (plaintext ≠ [] → HandedOver trace recipient .first plaintext) ∨
      status = .errAlloc ∧ outputsOf trace recipient .first = some (null, 0) := by
  have correct := engineOf_lawful lawful nistLawful encodes suite
  have pkResult := handedPk.result initial runs
  have skResult := handedSk.result initial runs
  have envelopeResult := handedEnvelope.result initial runs
  rw [generates] at pkResult skResult
  rw [seals] at envelopeResult
  obtain rfl : pk = (engineOf crypto encodings suite).provider.publicKeyBytes
      ((engineOf crypto encodings suite).provider.keygen seed).1 := by
    rcases mem_results_keygen pkResult with first | second
    · exact congrArg Prod.snd first
    · cases congrArg Prod.fst second
  obtain rfl : sk = (engineOf crypto encodings suite).secretKeyToBytes
      ((engineOf crypto encodings suite).provider.keygen seed).2 := by
    rcases mem_results_keygen skResult with first | second
    · cases congrArg Prod.fst first
    · exact congrArg Prod.snd second
  have opened := correct.opens (mem_results_seal envelopeResult)
  have computes : (calls recipient).computes = .ok [(.first, plaintext)] := by
    rw [opens, Call.computes, if_neg (ne_false_of_eq_true present), sameAad, sameContext, opened]
    rfl
  have results : (calls recipient).results = [(.first, plaintext)] := by
    rw [Call.results, computes]
  obtain ⟨-, status', same, documented⟩ := holds_of_returned initial runs returned
  cases same
  rw [progressOf_outputs, computes] at documented
  rcases documented with ⟨rfl, wrote⟩ | ⟨rfl, written, missing, split, some, -, cleared⟩
  · obtain ⟨ptr, there, found⟩ := wrote _ (List.mem_singleton_self _)
    refine .inl ⟨rfl, ⟨ptr, there, found⟩, fun nonempty => ?_⟩
    obtain ⟨before, answer, member⟩ := mem_of_outputsOf found
    obtain ⟨data, result, -, registered, block⟩ := hands_over initial runs before recipient .first
      ptr plaintext.length answer member (List.length_pos_of_ne_nil nonempty)
    rw [results] at result
    cases List.mem_singleton.mp result
    exact ⟨nonempty, before, ptr, answer, member, registered, block⟩
  · -- the only result is the missing one
    obtain ⟨last, rest, rfl⟩ := List.exists_cons_of_ne_nil some
    have member : (Slot.first, plaintext) ∈ last :: rest := by
      cases written with
      | nil =>
          have whole : [(Slot.first, plaintext)] = last :: rest := split
          rw [← whole]
          exact List.mem_singleton_self _
      | cons head tail => cases tail <;> cases split
    exact .inr ⟨rfl, cleared _ member⟩

end Sealing

/-! ### An exchange -/

/-- An envelope is never empty, and no allocation of one is refused for its size. -/
theorem Engine.Lawful.sealed_length {engine : Engine} (lawful : engine.Lawful)
    {coins : SealCoins engine.provider.Coins} {key : engine.provider.PublicKey}
    {plaintext aad context envelope : Bytes}
    (sealed : Envelope.encrypt engine.crypto engine.provider coins key plaintext aad context =
      .ok envelope) : envelope ≠ [] ∧ envelope.length ≤ isizeMax := by
  obtain ⟨_, _, kemCt, header, _, aeadCt, _, _, ⟨plaintextBound, -, -⟩, ⟨-, -, small⟩, encapsulated,
    reads, -, -, encrypted, rfl⟩ := WireV2.seal_eq_ok sealed
  have headerLength := reads.lengthField
  have kemLength := lawful.provider.encapsulate_length _ _ _ _ encapsulated
  have aeadLength := lawful.crypto.aesGcmEncrypt_length _ _ _ _ _ encrypted
  have total : (header ++ kemCt ++ aeadCt).length =
      header.length + kemCt.length + aeadCt.length := by
    simp only [List.length_append]
  simp only [WireV2.maxPlaintextLen, WireV2.headerLen, isizeMax] at *
  constructor
  · intro nothing
    rw [nothing] at total
    rw [List.length_nil] at total
    omega
  · omega

/-- Sealing within the limits, when the source of randomness answers. -/
theorem Engine.Lawful.sealComputes_eq {engine : Engine} (lawful : engine.Lawful)
    {seed : engine.provider.Seed} {coins : SealCoins engine.provider.Coins}
    {plaintext aad context envelope : Bytes}
    (sealed : Envelope.encrypt engine.crypto engine.provider coins (engine.provider.keygen seed).1
      plaintext aad context = .ok envelope) :
    sealComputes engine coins (engine.provider.publicKeyBytes (engine.provider.keygen seed).1)
      plaintext aad context = .ok envelope := by
  rw [← lawful.keygen_pair] at sealed ⊢
  unfold sealComputes
  rw [lawful.reads_publicKey]
  simp only [sealed]

/-- Sealing what can be sealed writes the envelope. -/
theorem sealImpl_of_computes {engine : Engine} {coins : SealCoins engine.provider.Coins}
    {pk plaintext ciphertext : Bytes} {aad context : Option Bytes} (outputs : BufferOutputs)
    (present : outputs.present = true)
    (computes : sealComputes engine coins pk plaintext (aad.getD []) (context.getD []) =
      .ok ciphertext) :
    sealImpl engine coins (some pk) (some plaintext) aad context outputs =
      exec (.setOutput .first null 0) >>= fun _ => writeOutput ciphertext .first := by
  unfold sealComputes at computes
  unfold sealImpl
  simp only
  rw [if_neg (ne_false_of_eq_true present)]
  split at computes
  · cases computes
  · split at computes
    · cases computes
    · cases computes
      simp only [*]

/-- Opening what can be opened writes the plaintext. -/
theorem openImpl_of_computes {engine : Engine} {sk ciphertext plaintext : Bytes}
    {aad context : Option Bytes} (outputs : BufferOutputs)
    (present : outputs.present = true)
    (computes : openComputes engine sk ciphertext (aad.getD []) (context.getD []) = .ok plaintext) :
    openImpl engine (some sk) (some ciphertext) aad context outputs =
      exec (.setOutput .first null 0) >>= fun _ => writeOutput plaintext .first := by
  unfold openComputes at computes
  unfold openImpl
  simp only
  rw [if_neg (ne_false_of_eq_true present)]
  split at computes
  · cases computes
  · split at computes
    · cases computes
    · cases computes
      simp only [*]

section Progress

variable {ι : Type} {arena : Arena} {mayFree : Memory → Address → Prop}
  {trace : CallTrace ι} {pool start : Callers ι}

/-- A caller has the buffer it was handed in every longer trace. -/
theorem HandedOver.append {caller : ι} {slot : Slot} {data : Bytes}
    (handed : HandedOver trace caller slot data) (more : CallTrace ι) :
    HandedOver (trace ++ more) caller slot data := by
  obtain ⟨some, before, ptr, answer, member, found⟩ := handed
  exact ⟨some, before, ptr, answer, List.mem_append_left _ member, found⟩

/-- What `writeOutput` does with a block it gets. -/
theorem writeOutput_perform {data : Bytes} {α : Type} (slot : Slot)
    (continuation : Status → Code α) {ptr : Address} (there : ptr ≠ null)
    (some : data.length ≠ 0) (small : data.length ≤ isizeMax) :
    ∃ next, (writeOutput data slot >>= continuation) = .perform (.alloc data.length) next ∧
      next (.some ptr) = .perform (.insert ptr data.length) fun _ =>
        .perform (.copyNonoverlapping ptr data) fun _ =>
          .perform (.setOutput slot ptr data.length) fun _ => continuation .ok := by
  unfold writeOutput allocBuf
  rw [if_neg some, if_neg (not_lt.mpr small)]
  refine ⟨_, rfl, ?_⟩
  change Program.perform (.insert ptr data.length) (fun _ =>
    (if ptr = null then (.ret .errAlloc : Code Status) else _) >>= continuation) = _
  rw [if_neg there]
  rfl

/-- While there is room, a result is handed over. -/
theorem writes [DecidableEq ι] {caller : ι} {slot : Slot} {data : Bytes}
    {continuation : Status → Code Status}
    (ptr : Address) (runs : Pool.Runs (heap arena mayFree) start trace pool)
    (waiting : pool.thread caller = .running (writeOutput data slot >>= continuation))
    (some : data ≠ []) (small : data.length ≤ isizeMax) (within : ptr ∈ arena.addresses)
    (vacant : pool.shared.blocks ptr = none) :
    ∃ (more : CallTrace ι) (after : Memory),
      Pool.Runs (heap arena mayFree) start (trace ++ more)
        ⟨after, Function.update pool.thread caller (.running (continuation .ok))⟩ ∧
      after.blocks = Function.update pool.shared.blocks ptr (.some ⟨data, true⟩) ∧
      HandedOver (trace ++ more) caller slot data := by
  have there : ptr ≠ null := by
    rintro rfl
    exact arena.null_notMem within
  have length : data.length ≠ 0 := fun nothing => some (List.length_eq_zero_iff.mp nothing)
  obtain ⟨next, same, gives⟩ := writeOutput_perform slot continuation there length small
  -- the new block may have any contents, so let it have these
  have room : ((pool.shared.setBlock ptr (.some ⟨data, true⟩)).setAllocation ptr
      (.some data.length)).IsOurs ptr data.length := ⟨_, Memory.setBlock_self, rfl, rfl⟩
  obtain ⟨block, found, -, written⟩ :=
    Memory.write_fits (.strayCopy ptr data.length) room le_rfl some
  rw [Memory.setAllocation_blocks, Memory.setBlock_self] at found
  cases found
  rw [List.drop_length, List.append_nil] at written
  have first := does caller (.alloc data.length) (.some ptr) runs (waiting.trans (congrArg _ same))
    ⟨within, vacant, data, rfl, rfl⟩
  have second := does caller (.insert ptr data.length) () first
    ((Function.update_self _ _ _).trans (congrArg _ gives)) rfl
  have third := does caller (.copyNonoverlapping ptr data) () second (Function.update_self _ _ _)
    written.symm
  have fourth := does caller (.setOutput slot ptr data.length) () third (Function.update_self _ _ _)
    (if_neg length).symm
  simp only [Function.update_idem, List.append_assoc] at fourth
  exact ⟨_, _, fourth, Function.update_idem _ _ _, some, _, ptr, (),
    List.mem_append_right _ (List.mem_append_right _ (List.mem_append_right _
      (List.mem_append_right _ (List.mem_singleton_self _)))),
    Memory.setAllocation_self, Memory.setBlock_self⟩

/-- Clearing an output pointer is always possible. -/
theorem clears [DecidableEq ι] {continuation : Unit → Code Status} (caller : ι) (slot : Slot)
    (runs : Pool.Runs (heap arena mayFree) start trace pool)
    (waiting : pool.thread caller = .running (exec (.setOutput slot null 0) >>= continuation)) :
    Pool.Runs (heap arena mayFree) start
      (trace ++ [⟨pool.shared, .performed caller (.setOutput slot null 0) ()⟩])
      ⟨pool.shared, Function.update pool.thread caller (.running (continuation ()))⟩ :=
  does caller (.setOutput slot null 0) () runs waiting rfl

/-- While there is room, a call with one result returns with it. -/
theorem delivers [DecidableEq ι] {data : Bytes} (caller : ι) (ptr : Address)
    (runs : Pool.Runs (heap arena mayFree) start trace pool)
    (waiting : pool.thread caller =
      .running (exec (.setOutput .first null 0) >>= fun _ => writeOutput data .first))
    (some : data ≠ []) (small : data.length ≤ isizeMax) (within : ptr ∈ arena.addresses)
    (vacant : pool.shared.blocks ptr = none) :
    ∃ (more : CallTrace ι) (after : Memory),
      Pool.Runs (heap arena mayFree) start (trace ++ more)
        ⟨after, Function.update pool.thread caller (.finished (.ok .ok))⟩ ∧
      after.blocks = Function.update pool.shared.blocks ptr (.some ⟨data, true⟩) ∧
      HandedOver (trace ++ more) caller .first data ∧
      Returned (trace ++ more) caller (.ok .ok) := by
  have cleared := clears caller .first runs waiting
  obtain ⟨more, after, wrote, blocks, handed⟩ := writes ptr cleared
    ((Function.update_self _ _ _).trans (congrArg _ (bind_ret (writeOutput data .first)).symm))
    some small within vacant
  obtain ⟨last, returned⟩ := ends caller wrote (Function.update_self _ _ _) rfl
  simp only [Function.update_idem, List.append_assoc] at last returned handed
  exact ⟨_, after, last, blocks, by simpa only [List.append_assoc] using handed.append _, returned⟩

end Progress

/-- The callers of one exchange. -/
inductive Party where
  | owner
  | sender
  | recipient
  deriving DecidableEq, Repr

/-- A key pair, data sealed to it, and the envelope opened. -/
def exchange (engine : Engine) (seed : engine.provider.Seed)
    (coins : SealCoins engine.provider.Coins) (plaintext envelope : Bytes) : Party → Call
  | .owner => .keygen engine seed ⟨true, true, true, true⟩
  | .sender => .seal engine coins
      (some (engine.provider.publicKeyBytes (engine.provider.keygen seed).1)) (some plaintext) none
      none ⟨true, true⟩
  | .recipient => .open engine (some (engine.secretKeyToBytes (engine.provider.keygen seed).2))
      (some envelope) none none ⟨true, true⟩

/-- Bytes that can be allocated. -/
def Allocatable (data : Bytes) : Prop := data ≠ [] ∧ data.length ≤ isizeMax

/-- While there is room, an exchange runs to its end. -/
theorem exchange_runs {engine : Engine} (lawful : engine.Lawful) (seed : engine.provider.Seed)
    {coins : SealCoins engine.provider.Coins} {plaintext envelope : Bytes}
    (sealed : Envelope.encrypt engine.crypto engine.provider coins (engine.provider.keygen seed).1
      plaintext [] [] = .ok envelope)
    (pkFits : Allocatable (engine.provider.publicKeyBytes (engine.provider.keygen seed).1))
    (skFits : Allocatable (engine.secretKeyToBytes (engine.provider.keygen seed).2))
    (plaintextFits : Allocatable plaintext) :
    ∃ (trace : CallTrace Party) (pool : Callers Party),
      Pool.Runs (heap manyAddresses (ownerFrees manyAddresses))
        (callers emptyMemory (exchange engine seed coins plaintext envelope)) trace pool ∧
      HandedOver trace .owner .first
        (engine.provider.publicKeyBytes (engine.provider.keygen seed).1) ∧
      HandedOver trace .owner .second
        (engine.secretKeyToBytes (engine.provider.keygen seed).2) ∧
      HandedOver trace .sender .first envelope ∧ Returned trace .recipient (.ok .ok) := by
  have seals : sealComputes engine coins
      (engine.provider.publicKeyBytes (engine.provider.keygen seed).1) plaintext
        (Option.getD none []) (Option.getD none []) = .ok envelope := lawful.sealComputes_eq sealed
  have opens : openComputes engine (engine.secretKeyToBytes (engine.provider.keygen seed).2)
      envelope (Option.getD none []) (Option.getD none []) = .ok plaintext := lawful.opens seals
  have fits := lawful.sealed_length sealed
  have begins : Pool.Runs (heap manyAddresses (ownerFrees manyAddresses))
    (callers emptyMemory (exchange engine seed coins plaintext envelope)) []
    (callers emptyMemory (exchange engine seed coins plaintext envelope)) := .refl
  have generates : (exchange engine seed coins plaintext envelope .owner).code =
      exec (.setOutput .first null 0) >>= fun _ => exec (.setOutput .second null 0) >>= fun _ =>
        writeOutput (engine.provider.publicKeyBytes (engine.provider.keygen seed).1) .first >>=
          fun rc => if rc ≠ .ok then .ret rc
            else writeOutput (engine.secretKeyToBytes (engine.provider.keygen seed).2) .second :=
    rfl
  have sends : (exchange engine seed coins plaintext envelope .sender).code =
      exec (.setOutput .first null 0) >>= fun _ => writeOutput envelope .first :=
    sealImpl_of_computes ⟨true, true⟩ rfl seals
  have receives : (exchange engine seed coins plaintext envelope .recipient).code =
      exec (.setOutput .first null 0) >>= fun _ => writeOutput plaintext .first :=
    openImpl_of_computes ⟨true, true⟩ rfl opens
  -- the owner is handed its pair at the first two addresses
  have clearedFirst := clears .owner .first begins (congrArg _ generates)
  have cleared := clears .owner .second clearedFirst rfl
  obtain ⟨_, _, first, pkBlocks, pk⟩ := writes 16 cleared (Function.update_self _ _ _) pkFits.1
    pkFits.2 (mem_manyAddresses 0) rfl
  obtain ⟨_, _, second, skBlocks, sk⟩ := writes 17 first
    ((Function.update_self _ _ _).trans (congrArg _ (bind_ret (writeOutput
      (engine.secretKeyToBytes (engine.provider.keygen seed).2) .second)).symm)) skFits.1
    skFits.2 (mem_manyAddresses 1) (by rw [pkBlocks]; rfl)
  simp only [Function.update_idem] at second
  -- the envelope goes to the third, the plaintext to the fourth
  obtain ⟨_, _, third, envelopeBlocks, handed, -⟩ := delivers .sender 18 second
    ((Function.update_of_ne (by decide) _ _).trans (congrArg Thread.running sends)) fits.1
    fits.2 (mem_manyAddresses 2)
    (by rw [skBlocks, pkBlocks]; rfl)
  obtain ⟨_, _, fourth, -, -, returned⟩ := delivers .recipient 19 third
    ((Function.update_of_ne (by decide) _ _).trans ((Function.update_of_ne (by decide) _ _).trans
      (congrArg Thread.running receives))) plaintextFits.1 plaintextFits.2
    (mem_manyAddresses 3) (by rw [envelopeBlocks, skBlocks, pkBlocks]; rfl)
  exact ⟨_, _, fourth, ((pk.append _).append _).append _, (sk.append _).append _, handed.append _,
    returned⟩
/-- The encodings that go with the suite without secrets. -/
def transparentEncodings : NistEncodings transparentNist where
  p384ToBytes _ := .zeros 48
  p384FromSlice _ := some ()
  mlkemNew _ := some ()

theorem transparentEncodings_lawful : transparentEncodings.Lawful where
  fromSlice_toBytes _ := rfl
  new_toBytes _ := rfl

theorem allocatable_of_length {data : Bytes} {length : Nat} (same : data.length = length)
    (positive : 0 < length) (small : length ≤ isizeMax) : Allocatable data :=
  ⟨List.ne_nil_of_length_pos (same ▸ positive), same ▸ small⟩

/-- A message crosses the interface. -/
theorem exchange_opened : ∃ (trace : CallTrace Party),
    (outputsOf trace .recipient).Holds (.first, [7, 8, 9]) ∧
      HandedOver trace .recipient .first [7, 8, 9] := by
  have correct := citadelP384_lawful transparent_lawful transparentNist_lawful
    transparentEncodings_lawful
  have drawn : Suite.hybridP384MlKem1024.Drawn transparent transparentNist
    ⟨⟨some (), .zeros 32⟩, some (.zeros 12)⟩ := ⟨rfl, rfl⟩
  obtain ⟨envelope, sealed⟩ := WireV2.seal_within_limits transparent_lawful transparentNist_lawful
    transparent_contributes transparent_encrypts .hybridP384MlKem1024 ⟨(), .zeros 64⟩ drawn
    [7, 8, 9] [] [] (by decide) (by decide) (by decide)
  obtain ⟨trace, pool, runs, pk, sk, handed, returned⟩ := exchange_runs correct ((), .zeros 64)
    sealed (allocatable_of_length (P384MlKem1024PublicKey.toBytes_length _) (by decide) (by decide))
    (allocatable_of_length (P384MlKem1024SecretKey.toBytes_length _ _) (by decide) (by decide))
    ⟨List.cons_ne_nil _ _, by decide⟩
  rcases sealed_is_opened transparent_lawful transparentNist_lawful transparentEncodings_lawful
    .hybridP384MlKem1024 emptyMemory_initial runs rfl rfl rfl rfl rfl rfl pk sk handed returned with
    ⟨-, holds, whole⟩ | ⟨exhausted, -⟩
  · exact ⟨trace, holds, whole (List.cons_ne_nil _ _)⟩
  · cases exhausted

end Citadel.Ffi
