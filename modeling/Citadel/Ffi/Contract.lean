import Citadel.Ffi.Calls
import Citadel.Program.Journal

/-!
# What a call does with its buffers

A call holds at most one buffer at a time. `buffers` is the contract that follows it: a
block is allocated, registered, filled and handed over, in this order; a buffer that is
freed is taken off the registry, wiped and given back. What a call leaves in the output
pointers of its caller is documented by `Documented`.
-/

namespace Citadel.Ffi

open Envelope Program

/-- What a running call has to do with a buffer. -/
inductive Hold where
  | nothing
  /-- It has allocated the block. -/
  | fresh (ptr : Address) (size : Nat)
  /-- It has registered the block. -/
  | registered (ptr : Address) (size : Nat)
  /-- It has filled the block. -/
  | filled (ptr : Address) (data : Bytes)
  /-- Its caller asks it to free the buffer. -/
  | surrendered (ptr : Address)
  /-- It has taken the block off the registry. -/
  | removed (ptr : Address) (size : Nat)
  /-- It has wiped the block. -/
  | wiped (ptr : Address) (size : Nat)
  deriving DecidableEq, Repr

/-- What is in the output pointers of a caller; absent where they are as they were. -/
abbrev Outputs := Slot → Option (Address × Nat)

/-- What a call does to its output pointers. -/
def Outputs.apply (outputs : Outputs) : Op → Outputs
  | .setOutput slot ptr len => Function.update outputs slot (some (ptr, len))
  | _ => outputs

/-- The results of a call, in the order in which they are written. -/
abbrev Results := List (Slot × Bytes)

/-- How far a call has come. -/
structure Progress where
  hold : Hold
  outputs : Outputs

/-- The operations that a call may perform. -/
def Hold.allows (results : Results) : Hold → Op → Prop
  | .nothing, .alloc size => 0 < size ∧ size ≤ isizeMax
  | .nothing, .copyNonoverlapping _ data => data = []
  | .nothing, .setOutput slot ptr len =>
      len = 0 ∧ (ptr = null ∨ ptr = dangling ∧ (slot, []) ∈ results)
  | .nothing, .callFree _ => True
  | .fresh ptr size, .insert other count => other = ptr ∧ count = size
  | .registered ptr size, .copyNonoverlapping other data => other = ptr ∧ data.length = size
  | .filled ptr data, .setOutput slot other len =>
      other = ptr ∧ len = data.length ∧ data ≠ [] ∧ (slot, data) ∈ results
  | .surrendered ptr, .remove other => other = ptr
  | .removed ptr size, .writeBytes other count => other = ptr ∧ count = size
  | .wiped ptr size, .dealloc other count => other = ptr ∧ count = size
  | _, _ => False

section Allows

variable {hold : Hold} {results : Results} {ptr : Address} {size len : Nat} {data : Bytes}
  {slot : Slot}

theorem Hold.allows_alloc (allowed : hold.allows results (.alloc size)) :
    hold = .nothing ∧ 0 < size ∧ size ≤ isizeMax := by
  cases hold with
  | nothing => exact ⟨rfl, allowed⟩
  | _ => exact allowed.elim

theorem Hold.allows_insert (allowed : hold.allows results (.insert ptr size)) :
    hold = .fresh ptr size := by
  cases hold with
  | fresh other count =>
      obtain ⟨rfl, rfl⟩ := allowed
      rfl
  | _ => exact allowed.elim

theorem Hold.allows_copy (allowed : hold.allows results (.copyNonoverlapping ptr data)) :
    hold = .nothing ∧ data = [] ∨ hold = .registered ptr data.length := by
  cases hold with
  | nothing => exact .inl ⟨rfl, allowed⟩
  | registered other count =>
      obtain ⟨rfl, rfl⟩ := allowed
      exact .inr rfl
  | _ => exact allowed.elim

theorem Hold.allows_setOutput (allowed : hold.allows results (.setOutput slot ptr len)) :
    hold = .nothing ∧ len = 0 ∧ (ptr = null ∨ ptr = dangling ∧ (slot, []) ∈ results) ∨
      ∃ data, hold = .filled ptr data ∧ len = data.length ∧ data ≠ [] ∧
        (slot, data) ∈ results := by
  cases hold with
  | nothing => exact .inl ⟨rfl, allowed⟩
  | filled other data =>
      obtain ⟨rfl, rest⟩ := allowed
      exact .inr ⟨data, rfl, rest⟩
  | _ => exact allowed.elim

theorem Hold.allows_callFree (allowed : hold.allows results (.callFree ptr)) :
    hold = .nothing := by
  cases hold with
  | nothing => rfl
  | _ => exact allowed.elim

theorem Hold.allows_remove (allowed : hold.allows results (.remove ptr)) :
    hold = .surrendered ptr := by
  cases hold with
  | surrendered other =>
      obtain rfl : ptr = other := allowed
      rfl
  | _ => exact allowed.elim

theorem Hold.allows_writeBytes (allowed : hold.allows results (.writeBytes ptr size)) :
    hold = .removed ptr size := by
  cases hold with
  | removed other count =>
      obtain ⟨rfl, rfl⟩ := allowed
      rfl
  | _ => exact allowed.elim

theorem Hold.allows_dealloc (allowed : hold.allows results (.dealloc ptr size)) :
    hold = .wiped ptr size := by
  cases hold with
  | wiped other count =>
      obtain ⟨rfl, rfl⟩ := allowed
      rfl
  | _ => exact allowed.elim

end Allows

/-- The answers that a call relies on. -/
def expects : (op : Op) → op.Ret → Prop
  | .alloc _, some ptr => ptr ≠ null
  | .remove _, some size => 0 < size ∧ size ≤ isizeMax
  | _, _ => True

/-- What an operation does to what a call holds. -/
def Hold.next : Hold → (op : Op) → op.Ret → Hold
  | .nothing, .alloc size, some ptr => .fresh ptr size
  | .nothing, .callFree ptr, _ => if ptr = null then .nothing else .surrendered ptr
  | .fresh ptr size, .insert _ _, _ => .registered ptr size
  | .registered ptr _, .copyNonoverlapping _ data, _ => .filled ptr data
  | .filled _ _, .setOutput _ _ _, _ => .nothing
  | .surrendered ptr, .remove _, some size => .removed ptr size
  | .surrendered _, .remove _, none => .nothing
  | .removed ptr size, .writeBytes _ _, _ => .wiped ptr size
  | .wiped _ _, .dealloc _ _, _ => .nothing
  | hold, _, _ => hold

/-- The contract of a call with these results. -/
@[reducible] def buffers (results : Results) : Contract Op Op.Ret where
  Ghost := Progress
  Allows progress := progress.hold.allows results
  Expects _ := expects
  after progress op answer := ⟨progress.hold.next op answer, progress.outputs.apply op⟩

/-- The result is where the caller looks for it. -/
def Outputs.Holds (outputs : Outputs) (result : Slot × Bytes) : Prop :=
  ∃ ptr, ptr ≠ null ∧ outputs result.1 = some (ptr, result.2.length)

/-- What a call returns and leaves in its output pointers. What it computes may be refused;
results are written in order, until memory runs out. -/
def Documented (computed : Except Status Results) (outputs : Outputs) (status : Status) : Prop :=
  match computed with
  | .error refusal => status = refusal ∧
      if refusal = .errNull then ∀ slot, outputs slot = none
      else ∀ slot, outputs slot = none ∨ outputs slot = some (null, 0)
  | .ok results =>
      (status = .ok ∧ ∀ result ∈ results, outputs.Holds result) ∨
        status = .errAlloc ∧ ∃ written missing, results = written ++ missing ∧ missing ≠ [] ∧
          (∀ result ∈ written, outputs.Holds result) ∧
          ∀ result ∈ missing, outputs result.1 = some (null, 0)

/-! ### Calls -/

/-- A call of the C interface. -/
inductive Call where
  | keygen (engine : Engine) (seed : engine.provider.Seed) (outputs : KeygenOutputs)
  | «seal» (engine : Engine) (coins : SealCoins engine.provider.Coins)
      (pk plaintext aad context : Option Bytes) (outputs : BufferOutputs)
  | «open» (engine : Engine) (sk ciphertext aad context : Option Bytes) (outputs : BufferOutputs)
  | free (ptr : Address) (len : Nat)

/-- The code of a call. -/
def Call.code : Call → Code Status
  | .keygen engine seed outputs => keygenImpl engine seed outputs
  | .seal engine coins pk plaintext aad context outputs =>
      sealImpl engine coins pk plaintext aad context outputs
  | .open engine sk ciphertext aad context outputs =>
      openImpl engine sk ciphertext aad context outputs
  | .free ptr len => do
      citadelFree ptr len
      .ret .ok

/-- What sealing computes. -/
def sealComputes (engine : Engine) (coins : SealCoins engine.provider.Coins)
    (pk plaintext aad context : Bytes) : Except Status Bytes :=
  match engine.publicKeyFromBytes pk with
  | .error _ => .error .errKey
  | .ok pk =>
      match Envelope.encrypt engine.crypto engine.provider coins pk plaintext aad context with
      | .error _ => .error .errSeal
      | .ok ciphertext => .ok ciphertext

/-- What opening computes. -/
def openComputes (engine : Engine) (sk ciphertext aad context : Bytes) : Except Status Bytes :=
  match engine.secretKeyFromBytes sk with
  | .error _ => .error .errKey
  | .ok sk =>
      match Envelope.decrypt engine.crypto engine.provider sk ciphertext aad context with
      | .error _ => .error .errOpen
      | .ok plaintext => .ok plaintext

/-- What a call computes, apart from memory. -/
def Call.computes : Call → Except Status Results
  | .keygen engine seed outputs =>
      if outputs.present = false then .error .errNull
      else
        let (pk, sk) := engine.provider.keygen seed
        .ok [(.first, engine.provider.publicKeyBytes pk), (.second, engine.secretKeyToBytes sk)]
  | .seal engine coins pk plaintext aad context outputs =>
      match pk, plaintext with
      | some pk, some plaintext =>
          if outputs.present = false then .error .errNull
          else (sealComputes engine coins pk plaintext (aad.getD []) (context.getD [])).map
            fun ciphertext => [(.first, ciphertext)]
      | _, _ => .error .errNull
  | .open engine sk ciphertext aad context outputs =>
      match sk, ciphertext with
      | some sk, some ciphertext =>
          if outputs.present = false then .error .errNull
          else (openComputes engine sk ciphertext (aad.getD []) (context.getD [])).map
            fun plaintext => [(.first, plaintext)]
      | _, _ => .error .errNull
  | .free _ _ => .ok []

/-- The results of a call. -/
def Call.results (call : Call) : Results :=
  match call.computes with
  | .ok results => results
  | .error _ => []

/-- What a call returns with. -/
def Call.Ends (call : Call) (progress : Progress) (outcome : Outcome Empty Status) : Prop :=
  progress.hold = .nothing ∧ ∃ status, outcome = .ok status ∧
    Documented call.computes progress.outputs status

section Meets

variable {results : Results} {outputs : Outputs} {α : Type}
  {post : Progress → Outcome Empty α → Prop}

/-- The rule for a result: it is written, or memory runs out and nothing changes. -/
theorem writeOutput_bind {data : Bytes} {slot : Slot} {continuation : Status → Code α}
    (member : (slot, data) ∈ results)
    (wrote : ∀ ptr, ptr ≠ null → (continuation .ok).Meets (buffers results)
      ⟨.nothing, Function.update outputs slot (some (ptr, data.length))⟩ post)
    (exhausted : (continuation .errAlloc).Meets (buffers results) ⟨.nothing, outputs⟩ post) :
    (writeOutput data slot >>= continuation).Meets (buffers results) ⟨.nothing, outputs⟩ post := by
  unfold writeOutput allocBuf
  by_cases empty : data.length = 0
  · -- an empty result lives at the dangling address and is never registered
    have nil : data = [] := List.length_eq_zero_iff.mp empty
    rw [if_pos empty]
    refine ⟨nil, fun _ _ => ⟨⟨empty, .inr ⟨rfl, nil ▸ member⟩⟩, fun _ _ => ?_⟩⟩
    exact wrote dangling Nat.one_ne_zero
  · rw [if_neg empty]
    by_cases large : isizeMax < data.length
    · rw [if_pos large]
      exact exhausted
    · rw [if_neg large]
      refine ⟨⟨Nat.pos_of_ne_zero empty, not_lt.mp large⟩, fun found expected => ?_⟩
      cases found with
      | none => exact exhausted
      | some ptr =>
          have there : ptr ≠ null := expected
          have filled : data ≠ [] := fun nil => empty (nil ▸ rfl)
          refine ⟨⟨rfl, rfl⟩, fun _ _ => ?_⟩
          change Meets _ _ ((if ptr = null then (.ret .errAlloc : Code Status) else _) >>= _) _
          rw [if_neg there]
          refine ⟨⟨rfl, rfl⟩, fun _ _ => ⟨⟨rfl, rfl, filled, member⟩, fun _ _ => ?_⟩⟩
          exact wrote ptr there

/-- The rule for clearing an output pointer. -/
theorem clear_bind {slot : Slot} {continuation : Unit → Code α}
    (rest : (continuation ()).Meets (buffers results)
      ⟨.nothing, Function.update outputs slot (some (null, 0))⟩ post) :
    (exec (.setOutput slot null 0) >>= continuation).Meets (buffers results) ⟨.nothing, outputs⟩
      post :=
  ⟨⟨rfl, .inl rfl⟩, fun _ _ => rest⟩

/-- The rule for the only or last result. -/
theorem writeOutput_last {data : Bytes} {slot : Slot}
    {post : Progress → Outcome Empty Status → Prop}
    (member : (slot, data) ∈ results)
    (wrote : ∀ ptr, ptr ≠ null →
      post ⟨.nothing, Function.update outputs slot (some (ptr, data.length))⟩ (.ok .ok))
    (exhausted : post ⟨.nothing, outputs⟩ (.ok .errAlloc)) :
    (writeOutput data slot).Meets (buffers results) ⟨.nothing, outputs⟩ post := by
  have whole : (writeOutput data slot >>= fun status => .ret status).Meets (buffers results)
      ⟨.nothing, outputs⟩ post := writeOutput_bind member wrote exhausted
  exact bind_ret (writeOutput data slot) ▸ whole

end Meets

section Documented

variable {outputs : Outputs}

/-- Nothing was put into the output pointers. -/
def Outputs.untouched : Outputs := fun _ => none

theorem clear_documented (slot other : Slot) (cleared : outputs other = none ∨
    outputs other = some (null, 0)) :
    Function.update outputs slot (some (null, 0)) other = none ∨
      Function.update outputs slot (some (null, 0)) other = some (null, 0) := by
  by_cases same : other = slot
  · subst same
    exact .inr (Function.update_self _ _ _)
  · rw [Function.update_of_ne same]
    exact cleared

/-- One result that was computed: it is written, or memory runs out. -/
theorem writeOutput_ends {call : Call} {data : Bytes}
    (computes : call.computes = .ok [(.first, data)]) :
    (exec (.setOutput .first null 0) >>= fun _ => writeOutput data .first).Meets
      (buffers call.results) ⟨.nothing, .untouched⟩ call.Ends := by
  have results : call.results = [(.first, data)] := by
    rw [Call.results, computes]
  refine clear_bind (writeOutput_last ?_ (fun ptr there => ?_) ?_)
  · rw [results]
    exact List.mem_singleton_self _
  · refine ⟨rfl, .ok, rfl, ?_⟩
    rw [computes]
    refine .inl ⟨rfl, fun result member => ?_⟩
    obtain rfl := List.mem_singleton.mp member
    exact ⟨ptr, there, rfl⟩
  · refine ⟨rfl, .errAlloc, rfl, ?_⟩
    rw [computes]
    refine .inr ⟨rfl, [], _, rfl, List.cons_ne_nil _ _, fun _ member => (by cases member),
      fun result member => ?_⟩
    obtain rfl := List.mem_singleton.mp member
    rfl

/-- A call that is refused before it touches an output pointer. -/
theorem refused_null {call : Call} (computes : call.computes = .error .errNull) :
    (Program.ret .errNull : Code Status).Meets (buffers call.results) ⟨.nothing, .untouched⟩
      call.Ends := by
  refine ⟨rfl, .errNull, rfl, ?_⟩
  rw [computes]
  exact ⟨rfl, fun _ => rfl⟩

/-- A call that is refused after it has cleared its output pointer. -/
theorem refused_cleared {call : Call} {status : Status} (computes : call.computes = .error status)
    (later : status ≠ .errNull) :
    (exec (.setOutput .first null 0) >>= fun _ => .ret status).Meets
      (buffers call.results) ⟨.nothing, .untouched⟩ call.Ends := by
  refine clear_bind ⟨rfl, status, rfl, ?_⟩
  rw [computes]
  refine ⟨rfl, ?_⟩
  rw [if_neg later]
  exact fun slot => clear_documented .first slot (.inl rfl)

end Documented

/-! ### Every call -/

theorem keygen_ends (engine : Engine) (seed : engine.provider.Seed) (outputs : KeygenOutputs) :
    (keygenImpl engine seed outputs).Meets
      (buffers (Call.keygen engine seed outputs).results) ⟨.nothing, .untouched⟩
      (Call.keygen engine seed outputs).Ends := by
  unfold keygenImpl
  by_cases absent : outputs.present = false
  · rw [if_pos absent]
    exact refused_null (if_pos absent)
  · rw [if_neg absent]
    generalize keys : engine.provider.keygen seed = pair
    obtain ⟨pk, sk⟩ := pair
    have computes : (Call.keygen engine seed outputs).computes = .ok
        [(.first, engine.provider.publicKeyBytes pk), (.second, engine.secretKeyToBytes sk)] := by
      rw [Call.computes, if_neg absent, keys]
    have results : (Call.keygen engine seed outputs).results =
        [(.first, engine.provider.publicKeyBytes pk), (.second, engine.secretKeyToBytes sk)] := by
      rw [Call.results, computes]
    refine clear_bind (clear_bind (writeOutput_bind ?_ (fun pkPtr pkThere => ?_) ?_))
    · rw [results]
      exact List.mem_cons_self
    · -- the public key is out; the secret key is still missing
      refine writeOutput_last ?_ (fun skPtr skThere => ?_) ?_
      · rw [results]
        exact List.mem_cons_of_mem _ (List.mem_singleton_self _)
      · refine ⟨rfl, .ok, rfl, ?_⟩
        rw [computes]
        refine .inl ⟨rfl, fun result member => ?_⟩
        rcases List.mem_cons.mp member with rfl | last
        · exact ⟨pkPtr, pkThere, rfl⟩
        · obtain rfl := List.mem_singleton.mp last
          exact ⟨skPtr, skThere, rfl⟩
      · refine ⟨rfl, .errAlloc, rfl, ?_⟩
        rw [computes]
        refine .inr ⟨rfl, [_], [_], rfl, List.cons_ne_nil _ _, fun result member => ?_,
          fun result member => ?_⟩
        · obtain rfl := List.mem_singleton.mp member
          exact ⟨pkPtr, pkThere, rfl⟩
        · obtain rfl := List.mem_singleton.mp member
          rfl
    · refine ⟨rfl, .errAlloc, rfl, ?_⟩
      rw [computes]
      refine .inr ⟨rfl, [], _, rfl, List.cons_ne_nil _ _, fun _ member => (by cases member),
        fun result member => ?_⟩
      rcases List.mem_cons.mp member with rfl | last
      · rfl
      · obtain rfl := List.mem_singleton.mp last
        rfl

theorem seal_ends (engine : Engine) (coins : SealCoins engine.provider.Coins)
    (pk plaintext aad context : Option Bytes) (outputs : BufferOutputs) :
    (sealImpl engine coins pk plaintext aad context outputs).Meets
      (buffers (Call.seal engine coins pk plaintext aad context outputs).results)
      ⟨.nothing, .untouched⟩ (Call.seal engine coins pk plaintext aad context outputs).Ends := by
  cases pk with
  | none => exact refused_null rfl
  | some pkBytes =>
      cases plaintext with
      | none => exact refused_null rfl
      | some plaintext =>
          unfold sealImpl
          simp only
          by_cases absent : outputs.present = false
          · rw [if_pos absent]
            exact refused_null (if_pos absent)
          · rw [if_neg absent]
            have computes : (Call.seal engine coins (some pkBytes) (some plaintext) aad context
                outputs).computes = (sealComputes engine coins pkBytes plaintext (aad.getD [])
                  (context.getD [])).map fun ciphertext => [(.first, ciphertext)] :=
              if_neg absent
            unfold sealComputes at computes
            cases parsed : engine.publicKeyFromBytes pkBytes with
            | error error =>
                rw [parsed] at computes
                exact refused_cleared computes (by decide)
            | ok pk =>
                rw [parsed] at computes
                simp only at computes ⊢
                split
                · rename_i error failed
                  rw [failed] at computes
                  exact refused_cleared computes (by decide)
                · rename_i ciphertext sealed
                  rw [sealed] at computes
                  exact writeOutput_ends computes

theorem open_ends (engine : Engine) (sk ciphertext aad context : Option Bytes)
    (outputs : BufferOutputs) :
    (openImpl engine sk ciphertext aad context outputs).Meets
      (buffers (Call.open engine sk ciphertext aad context outputs).results)
      ⟨.nothing, .untouched⟩ (Call.open engine sk ciphertext aad context outputs).Ends := by
  cases sk with
  | none => exact refused_null rfl
  | some skBytes =>
      cases ciphertext with
      | none => exact refused_null rfl
      | some ciphertext =>
          unfold openImpl
          simp only
          by_cases absent : outputs.present = false
          · rw [if_pos absent]
            exact refused_null (if_pos absent)
          · rw [if_neg absent]
            have computes : (Call.open engine (some skBytes) (some ciphertext) aad context
                outputs).computes = (openComputes engine skBytes ciphertext (aad.getD [])
                  (context.getD [])).map fun plaintext => [(.first, plaintext)] :=
              if_neg absent
            unfold openComputes at computes
            cases parsed : engine.secretKeyFromBytes skBytes with
            | error error =>
                rw [parsed] at computes
                exact refused_cleared computes (by decide)
            | ok sk =>
                rw [parsed] at computes
                simp only at computes ⊢
                split
                · rename_i error failed
                  rw [failed] at computes
                  exact refused_cleared computes (by decide)
                · rename_i plaintext opened
                  rw [opened] at computes
                  exact writeOutput_ends computes

theorem free_ends (ptr : Address) (len : Nat) :
    (Call.free ptr len).code.Meets (buffers (Call.free ptr len).results)
      ⟨.nothing, .untouched⟩ (Call.free ptr len).Ends := by
  have ends : (Call.free ptr len).Ends ⟨.nothing, .untouched⟩ (.ok .ok) :=
    ⟨rfl, .ok, rfl, .inl ⟨rfl, fun _ member => (by cases member)⟩⟩
  refine ⟨trivial, fun _ _ => ?_⟩
  by_cases nothing : ptr = null
  · subst nothing
    exact ends
  · simp only [Hold.next, if_neg nothing]
    refine ⟨rfl, fun found expected => ?_⟩
    cases found with
    | none => exact ends
    | some size =>
        obtain ⟨positive, small⟩ : 0 < size ∧ size ≤ isizeMax := expected
        change Meets (buffers _) ⟨.removed ptr size, _⟩ ((if size = 0 then (.ret () : Code Unit)
          else exec (.writeBytes ptr size) >>= fun _ =>
            if size ≤ isizeMax then exec (.dealloc ptr size) else .ret ()) >>= fun _ =>
              .ret Status.ok) _
        rw [if_neg (Nat.ne_of_gt positive), if_pos small]
        refine ⟨⟨rfl, rfl⟩, fun _ _ => ?_⟩
        exact ⟨⟨rfl, rfl⟩, fun _ _ => ends⟩

/-- Every call keeps to its contract. -/
theorem Call.meets (call : Call) :
    call.code.Meets (buffers call.results) ⟨.nothing, .untouched⟩ call.Ends := by
  cases call with
  | keygen engine seed outputs => exact keygen_ends engine seed outputs
  | «seal» engine coins pk plaintext aad context outputs =>
      exact seal_ends engine coins pk plaintext aad context outputs
  | «open» engine sk ciphertext aad context outputs =>
      exact open_ends engine sk ciphertext aad context outputs
  | free ptr len => exact free_ends ptr len

end Citadel.Ffi
