import Citadel.Envelope.Transparent
import Citadel.Ffi.Contract
import Citadel.Program.Interleaving

/-!
# Freeing is safe whatever is freed

The registry holds exactly blocks of the library that no running call is about to register
or give back. So in every interleaving, with callers that free anything at any time, the
allocator is only ever given live blocks of the library, with their own layout, each once,
and the zeros before that stay inside the block.
-/

namespace Citadel.Ffi

open Program

/-- The block that a call alone answers for: it is not on the registry. -/
def Hold.alone : Hold → Option (Address × Nat)
  | .fresh ptr size => some (ptr, size)
  | .removed ptr size => some (ptr, size)
  | .wiped ptr size => some (ptr, size)
  | _ => none

/-- The misuse that freeing could be blamed for. -/
def Misuse.OfFree : Misuse → Prop
  | .strayWipe _ _ => True
  | .badDealloc _ _ => True
  | _ => False

/-- A block of the library that an allocation of the code can have made. -/
structure Allocated (memory : Memory) (ptr : Address) (size : Nat) : Prop where
  positive : 0 < size
  small : size ≤ isizeMax
  ours : memory.IsOurs ptr size

section Sound

variable {ι : Type} {memory after : Memory} {holds : ι → Hold}

/-- The registry and what the calls alone answer for do not overlap, and all of it is live
blocks of the library. -/
structure Sound (memory : Memory) (holds : ι → Hold) : Prop where
  registered : ∀ ptr size, memory.allocations ptr = some size → Allocated memory ptr size
  held : ∀ caller ptr size, (holds caller).alone = some (ptr, size) →
    Allocated memory ptr size ∧ memory.allocations ptr = none
  apart : ∀ caller other ptr size count, (holds caller).alone = some (ptr, size) →
    (holds other).alone = some (ptr, count) → caller = other
  blameless : ∀ what ∈ memory.misuse, ¬ what.OfFree

theorem Allocated.mono {ptr : Address} {size : Nat} (allocated : Allocated memory ptr size)
    (kept : memory.IsOurs ptr size → after.IsOurs ptr size) : Allocated after ptr size :=
  ⟨allocated.positive, allocated.small, kept allocated.ours⟩

/-- A step that leaves the registry, the blocks of the library and what the calls answer
for as they are. -/
theorem Sound.quiet {holding : ι → Hold} (sound : Sound memory holds)
    (kept : ∀ ptr size, memory.IsOurs ptr size → after.IsOurs ptr size)
    (allocations : after.allocations = memory.allocations)
    (alone : ∀ caller, (holding caller).alone = (holds caller).alone)
    (blameless : ∀ what ∈ after.misuse, what ∈ memory.misuse ∨ ¬ what.OfFree) :
    Sound after holding where
  registered := by
    intro ptr size found
    rw [allocations] at found
    exact (sound.registered ptr size found).mono (kept ptr size)
  held := by
    intro caller ptr size answers
    rw [alone] at answers
    obtain ⟨allocated, free⟩ := sound.held caller ptr size answers
    exact ⟨allocated.mono (kept ptr size), allocations ▸ free⟩
  apart := by
    intro caller other ptr size count left right
    rw [alone] at left right
    exact sound.apart caller other ptr size count left right
  blameless := by
    intro what member
    rcases blameless what member with earlier | innocent
    · exact sound.blameless what earlier
    · exact innocent

/-- What other code of the process may do. -/
theorem Sound.drift (sound : Sound memory holds) (drifts : memory.Drifts after) :
    Sound after holds := by
  refine sound.quiet (fun ptr size ours => ?_) drifts.allocations (fun _ => rfl)
    fun what member => .inl (drifts.misuse ▸ member)
  rcases drifts.blocks ptr with same | ⟨foreign, -⟩ | ⟨-, kept⟩
  · exact (Memory.isOurs_congr same).mpr ours
  · exact absurd ours (foreign size)
  · exact kept size ours

variable [DecidableEq ι] {caller : ι} {ptr : Address} {size : Nat}

/-- What a call answers for after it has moved on. -/
theorem alone_update {hold : Hold} (other : ι) :
    (Function.update holds caller hold other).alone =
      if other = caller then hold.alone else (holds other).alone := by
  by_cases same : other = caller
  · subst same
    rw [if_pos rfl, Function.update_self]
  · rw [if_neg same, Function.update_of_ne same]

/-- A call moves on that answers for the same as before. -/
theorem alone_update_eq {hold : Hold} (same : hold.alone = (holds caller).alone) (other : ι) :
    (Function.update holds caller hold other).alone = (holds other).alone := by
  rw [alone_update]
  split
  · rename_i own
    rw [own, same]
  · rfl

/-- A call takes on a block that is neither registered nor anybody else's. -/
theorem Sound.take {hold : Hold} (sound : Sound memory holds)
    (takes : hold.alone = some (ptr, size)) (positive : 0 < size) (small : size ≤ isizeMax)
    (ours : after.IsOurs ptr size) (free : after.allocations ptr = none)
    (registry : ∀ other, other ≠ ptr → after.allocations other = memory.allocations other)
    (kept : ∀ other count, other ≠ ptr → memory.IsOurs other count → after.IsOurs other count)
    (others : ∀ caller count, (holds caller).alone ≠ some (ptr, count))
    (blameless : after.misuse = memory.misuse) :
    Sound after (Function.update holds caller hold) where
  registered := by
    intro other count found
    have different : other ≠ ptr := by
      rintro rfl
      rw [free] at found
      cases found
    rw [registry other different] at found
    exact (sound.registered other count found).mono (kept other count different)
  held := by
    intro actor other count answers
    rw [alone_update] at answers
    split at answers
    · rw [takes] at answers
      cases answers
      exact ⟨⟨positive, small, ours⟩, free⟩
    · have different : other ≠ ptr := fun same => others actor count (same ▸ answers)
      obtain ⟨allocated, unregistered⟩ := sound.held actor other count answers
      exact ⟨allocated.mono (kept other count different), (registry other different).trans
        unregistered⟩
  apart := by
    intro left right other first second leftHolds rightHolds
    rw [alone_update] at leftHolds rightHolds
    split at leftHolds
    · split at rightHolds
      · rename_i same also
        rw [same, also]
      · rw [takes] at leftHolds
        cases leftHolds
        exact absurd rightHolds (others right second)
    · split at rightHolds
      · rw [takes] at rightHolds
        cases rightHolds
        exact absurd leftHolds (others left first)
      · exact sound.apart left right other first second leftHolds rightHolds
  blameless := blameless ▸ sound.blameless

/-- A call lets go of the block it answered for: it is registered, or it is gone. -/
theorem Sound.release {hold : Hold} (sound : Sound memory holds)
    (held : (holds caller).alone = some (ptr, size)) (lets : hold.alone = none)
    (registry : ∀ other, other ≠ ptr → after.allocations other = memory.allocations other)
    (here : ∀ count, after.allocations ptr = some count → Allocated after ptr count)
    (kept : ∀ other count, other ≠ ptr → memory.IsOurs other count → after.IsOurs other count)
    (blameless : ∀ what ∈ after.misuse, what ∈ memory.misuse ∨ ¬ what.OfFree) :
    Sound after (Function.update holds caller hold) where
  registered := by
    intro other count found
    by_cases same : other = ptr
    · subst same
      exact here count found
    · rw [registry other same] at found
      exact (sound.registered other count found).mono (kept other count same)
  held := by
    intro actor other count answers
    rw [alone_update] at answers
    split at answers
    · rw [lets] at answers
      cases answers
    · rename_i different
      have elsewhere : other ≠ ptr := by
        rintro rfl
        exact different (sound.apart actor caller other count size answers held)
      obtain ⟨allocated, unregistered⟩ := sound.held actor other count answers
      exact ⟨allocated.mono (kept other count elsewhere), (registry other elsewhere).trans
        unregistered⟩
  apart := by
    intro left right other first second leftHolds rightHolds
    rw [alone_update] at leftHolds rightHolds
    split at leftHolds
    · rw [lets] at leftHolds
      cases leftHolds
    · split at rightHolds
      · rw [lets] at rightHolds
        cases rightHolds
      · exact sound.apart left right other first second leftHolds rightHolds
  blameless := by
    intro what member
    rcases blameless what member with earlier | innocent
    · exact sound.blameless what earlier
    · exact innocent

/-! ### The operations -/

variable {results : Results} {arena : Arena} {mayFree : Memory → Address → Prop}

/-- An allocation yields a block that nobody answers for yet, or nothing. -/
theorem Sound.alloc {answer : Op.Ret (.alloc size)} (sound : Sound memory holds)
    (allowed : (holds caller).allows results (.alloc size))
    (answers : memory.Answers arena mayFree (.alloc size) answer after) :
    Sound after (Function.update holds caller ((holds caller).next (.alloc size) answer)) := by
  obtain ⟨idle, positive, small⟩ := Hold.allows_alloc allowed
  cases answer with
  | none =>
      obtain rfl : after = memory := answers
      refine sound.quiet (fun _ _ => id) rfl (alone_update_eq ?_) fun _ => .inl
      rw [idle]
      rfl
  | some ptr =>
      obtain ⟨-, vacant, bytes, length, rfl⟩ := answers
      have dead : ∀ count, ¬ memory.IsOurs ptr count := by
        rintro count ⟨block, found, -, -⟩
        rw [vacant] at found
        cases found
      have taken : (holds caller).next (.alloc size) (some ptr) = .fresh ptr size := by
        rw [idle]
        rfl
      rw [taken]
      refine sound.take rfl positive small ⟨_, Memory.setBlock_self, rfl, length⟩ ?_
        (fun _ _ => rfl) ?_ ?_ rfl
      · cases found : memory.allocations ptr with
        | none => exact found
        | some count => exact absurd (sound.registered ptr count found).ours (dead count)
      · intro other count different ours
        exact (Memory.isOurs_congr (Memory.setBlock_of_ne different)).mpr ours
      · intro actor count answers
        exact dead count (sound.held actor ptr count answers).1.ours

/-- The call registers the block that it allocated. -/
theorem Sound.insert {answer : Op.Ret (.insert ptr size)} (sound : Sound memory holds)
    (allowed : (holds caller).allows results (.insert ptr size))
    (answers : memory.Answers arena mayFree (.insert ptr size) answer after) :
    Sound after (Function.update holds caller ((holds caller).next (.insert ptr size) answer)) := by
  have fresh := Hold.allows_insert allowed
  obtain rfl : after = memory.setAllocation ptr (some size) := answers
  have held : (holds caller).alone = some (ptr, size) := by
    rw [fresh]
    rfl
  obtain ⟨allocated, -⟩ := sound.held caller ptr size held
  refine sound.release held ?_ (fun other => Memory.setAllocation_of_ne) ?_
    (fun _ _ _ => id) fun _ => .inl
  · rw [fresh]
    rfl
  · intro count found
    rw [Memory.setAllocation_self] at found
    cases found
    exact allocated.mono id

/-- Filling a block moves none. -/
theorem Sound.copyNonoverlapping {data : Bytes} {answer : Op.Ret (.copyNonoverlapping ptr data)}
    (sound : Sound memory holds)
    (allowed : (holds caller).allows results (.copyNonoverlapping ptr data))
    (answers : memory.Answers arena mayFree (.copyNonoverlapping ptr data) answer after) :
    Sound after
      (Function.update holds caller
        ((holds caller).next (.copyNonoverlapping ptr data) answer)) := by
  obtain rfl : after = memory.write ptr data (.strayCopy ptr data.length) := answers
  refine sound.quiet (fun _ _ => Memory.isOurs_write.mpr) Memory.write_allocations
    (alone_update_eq ?_) ?_
  · rcases Hold.allows_copy allowed with ⟨idle, -⟩ | registered
    · rw [idle]
      rfl
    · rw [registered]
      rfl
  · intro what member
    rcases Memory.mem_write_misuse member with earlier | rfl
    · exact .inl earlier
    · exact .inr id

/-- The output is written for the caller and moves no block. -/
theorem Sound.setOutput {slot : Slot} {len : Nat} {answer : Op.Ret (.setOutput slot ptr len)}
    (sound : Sound memory holds) (allowed : (holds caller).allows results (.setOutput slot ptr len))
    (answers : memory.Answers arena mayFree (.setOutput slot ptr len) answer after) :
    Sound after
      (Function.update holds caller ((holds caller).next (.setOutput slot ptr len) answer)) := by
  have moved : after.blocks = memory.blocks ∧ after.allocations = memory.allocations ∧
      after.misuse = memory.misuse := by
    obtain rfl : after = if len = 0 then memory else memory.setOwned ptr true := answers
    split <;> exact ⟨rfl, rfl, rfl⟩
  obtain ⟨blocks, allocations, misuse⟩ := moved
  refine sound.quiet (fun other _ => (Memory.isOurs_congr (congrFun blocks other)).mpr)
    allocations (alone_update_eq ?_) fun what member => .inl (misuse ▸ member)
  rcases Hold.allows_setOutput allowed with ⟨idle, -⟩ | ⟨data, filled, -⟩
  · rw [idle]
    rfl
  · rw [filled]
    rfl

/-- The caller gives any pointer it likes. -/
theorem Sound.callFree {answer : Op.Ret (.callFree ptr)} (sound : Sound memory holds)
    (allowed : (holds caller).allows results (.callFree ptr))
    (answers : memory.Answers arena mayFree (.callFree ptr) answer after) :
    Sound after (Function.update holds caller ((holds caller).next (.callFree ptr) answer)) := by
  obtain ⟨-, rfl⟩ := answers
  refine sound.quiet (fun _ _ => id) rfl (alone_update_eq ?_) fun _ => .inl
  rw [Hold.allows_callFree allowed, Hold.next]
  split <;> rfl

/-- What was registered under the pointer is taken from the registry, and the call answers for it.
-/
theorem Sound.remove {answer : Op.Ret (.remove ptr)} (sound : Sound memory holds)
    (allowed : (holds caller).allows results (.remove ptr))
    (answers : memory.Answers arena mayFree (.remove ptr) answer after) :
    Sound after (Function.update holds caller ((holds caller).next (.remove ptr) answer)) := by
  have surrendered := Hold.allows_remove allowed
  obtain ⟨rfl, rfl⟩ := answers
  cases found : memory.allocations ptr with
  | none =>
      refine sound.quiet (fun _ _ => id) ?_ (alone_update_eq ?_) fun _ => .inl
      · funext other
        by_cases same : other = ptr
        · subst same
          rw [Memory.setAllocation_self, found]
        · exact Memory.setAllocation_of_ne same
      · rw [surrendered]
        rfl
  | some size =>
      obtain ⟨positive, small, ours⟩ := sound.registered ptr size found
      refine sound.take ?_ positive small ours Memory.setAllocation_self
        (fun other => Memory.setAllocation_of_ne) (fun _ _ _ => id) ?_ rfl
      · rw [surrendered]
        rfl
      · intro actor count answers
        have unregistered := (sound.held actor ptr count answers).2
        rw [found] at unregistered
        cases unregistered

/-- The zeros stay inside the block that was taken. -/
theorem Sound.writeBytes {answer : Op.Ret (.writeBytes ptr size)} (sound : Sound memory holds)
    (allowed : (holds caller).allows results (.writeBytes ptr size))
    (answers : memory.Answers arena mayFree (.writeBytes ptr size) answer after) :
    Sound after
      (Function.update holds caller ((holds caller).next (.writeBytes ptr size) answer)) := by
  have removed := Hold.allows_writeBytes allowed
  obtain rfl : after = memory.write ptr (List.replicate size 0) (.strayWipe ptr size) := answers
  have held : (holds caller).alone = some (ptr, size) := by
    rw [removed]
    rfl
  obtain ⟨allocated, -⟩ := sound.held caller ptr size held
  refine sound.quiet (fun _ _ => Memory.isOurs_write.mpr) Memory.write_allocations
    (alone_update_eq ?_) ?_
  · rw [removed]
    rfl
  · intro what member
    obtain ⟨block, -, -, written⟩ := Memory.write_fits (.strayWipe ptr size)
      allocated.ours (List.length_replicate ..).le
      (fun nothing => allocated.positive.ne' (by simpa using nothing))
    rw [written] at member
    exact .inl member

/-- The block that was taken is given back, and nobody answers for it any more. -/
theorem Sound.dealloc {answer : Op.Ret (.dealloc ptr size)} (sound : Sound memory holds)
    (allowed : (holds caller).allows results (.dealloc ptr size))
    (answers : memory.Answers arena mayFree (.dealloc ptr size) answer after) :
    Sound after
      (Function.update holds caller ((holds caller).next (.dealloc ptr size) answer)) := by
  have wiped := Hold.allows_dealloc allowed
  obtain rfl : after = memory.dealloc ptr size := answers
  have held : (holds caller).alone = some (ptr, size) := by
    rw [wiped]
    rfl
  obtain ⟨allocated, unregistered⟩ := sound.held caller ptr size held
  obtain ⟨block, -, freed⟩ := Memory.dealloc_ours allocated.ours
  have blocks : (memory.dealloc ptr size).blocks = (memory.setBlock ptr none).blocks := by
    rw [freed]
    split <;> rfl
  have allocations : (memory.dealloc ptr size).allocations = memory.allocations := by
    rw [freed]
    split <;> rfl
  refine sound.release held ?_ (fun other _ => congrFun allocations other) ?_ ?_ ?_
  · rw [wiped]
    rfl
  · intro count found
    rw [allocations, unregistered] at found
    cases found
  · intro other count different ours
    have same : (memory.dealloc ptr size).blocks other = memory.blocks other := by
      rw [blocks]
      exact Memory.setBlock_of_ne different
    exact (Memory.isOurs_congr same).mpr ours
  · intro what member
    rw [freed] at member
    split at member
    · exact .inl member
    · rcases List.mem_append.mp member with earlier | last
      · exact .inl earlier
      · obtain rfl := List.mem_singleton.mp last
        exact .inr id

/-- One operation of a call, whatever the callers free. -/
theorem Sound.step {op : Op} {answer : op.Ret} (sound : Sound memory holds)
    (allowed : (holds caller).allows results op)
    (answers : memory.Answers arena mayFree op answer after) :
    Sound after (Function.update holds caller ((holds caller).next op answer)) := by
  cases op with
  | alloc size => exact sound.alloc allowed answers
  | insert ptr size => exact sound.insert allowed answers
  | copyNonoverlapping ptr data => exact sound.copyNonoverlapping allowed answers
  | setOutput slot ptr len => exact sound.setOutput allowed answers
  | callFree ptr => exact sound.callFree allowed answers
  | remove ptr => exact sound.remove allowed answers
  | writeBytes ptr size => exact sound.writeBytes allowed answers
  | dealloc ptr size => exact sound.dealloc allowed answers

end Sound

/-! ### In an interleaving -/

section Interleaved

variable {ι : Type}

/-- The state of concurrent callers of the C interface. -/
abbrev Callers (ι : Type) := Pool ι Memory Op Op.Ret Empty Status

/-- A trace of concurrent callers. -/
abbrev CallTrace (ι : Type) := List (Entry Memory ι Op Op.Ret Empty Status)

/-- Callers that are about to make their calls. -/
def callers (memory : Memory) (calls : ι → Call) : Callers ι :=
  ⟨memory, fun caller => .running (calls caller).code⟩

variable {arena : Arena} {mayFree : Memory → Address → Prop} {memory : Memory}
  {calls : ι → Call} {trace : CallTrace ι} {pool : Callers ι}

/-- What calls rely on is answered. -/
theorem Sound.expects {holds : ι → Hold} (sound : Sound memory holds) {after : Memory} {op : Op}
    {answer : op.Ret} (answers : memory.Answers arena mayFree op answer after) :
    expects op answer := by
  cases op with
  | alloc size =>
      cases answer with
      | none => trivial
      | some ptr =>
          rintro rfl
          exact arena.null_notMem answers.1
  | remove ptr =>
      obtain ⟨rfl, -⟩ := answers
      cases found : memory.allocations ptr with
      | none => trivial
      | some size =>
          obtain ⟨positive, small, -⟩ := sound.registered ptr size found
          exact ⟨positive, small⟩
  | _ => trivial

variable [DecidableEq ι]

/-- How far a call has come. -/
def progressOf (calls : ι → Call) (trace : CallTrace ι) (caller : ι) : Progress :=
  (buffers (calls caller).results).ghostOf ⟨.nothing, .untouched⟩ caller trace

/-- What every call holds. -/
def holdsOf (calls : ι → Call) (trace : CallTrace ι) (caller : ι) : Hold :=
  (progressOf calls trace caller).hold

theorem holdsOf_performed {before : Memory} {caller : ι} {op : Op} {answer : op.Ret} :
    holdsOf calls (trace ++ [⟨before, .performed caller op answer⟩]) =
      Function.update (holdsOf calls trace) caller
        ((holdsOf calls trace caller).next op answer) := by
  funext other
  by_cases same : other = caller
  · subst same
    rw [Function.update_self, holdsOf, progressOf, Contract.ghostOf_performed_self]
    rfl
  · rw [Function.update_of_ne same, holdsOf, progressOf,
      Contract.ghostOf_performed_other (Ne.symm same)]
    rfl

theorem holdsOf_returned {before : Memory} {caller : ι} {outcome : Outcome Empty Status} :
    holdsOf calls (trace ++ [⟨before, .returned caller outcome⟩]) = holdsOf calls trace := by
  funext other
  rw [holdsOf, progressOf, Contract.ghostOf_returned]
  rfl

theorem holdsOf_drifted {before : Memory} :
    holdsOf calls (trace ++ [⟨before, .drifted⟩]) = holdsOf calls trace := by
  funext other
  rw [holdsOf, progressOf, Contract.ghostOf_drifted]
  rfl

/-- Nothing is registered and nothing is held at the start. -/
theorem sound_initial (initial : memory.Initial) :
    Sound memory (holdsOf calls ([] : CallTrace ι)) where
  registered := by
    intro ptr size found
    rw [initial.allocations ptr] at found
    cases found
  held := by
    intro caller ptr size answers
    cases answers
  apart := by
    intro caller other ptr size count answers
    cases answers
  blameless := by
    intro what member
    rw [initial.misuse] at member
    cases member

/-- Every call keeps to its contract, and the registry stays sound. -/
theorem sound_of_runs (initial : memory.Initial)
    (runs : Pool.Runs (heap arena mayFree) (callers memory calls) trace pool) :
    Sound pool.shared (holdsOf calls trace) ∧ ∀ caller,
      Pool.ThreadMeets (buffers (calls caller).results) (progressOf calls trace caller)
        (calls caller).Ends (pool.thread caller) := by
  have initially : ∀ caller, Pool.ThreadMeets (buffers (calls caller).results)
      ⟨.nothing, .untouched⟩ (calls caller).Ends ((callers memory calls).thread caller) :=
    fun caller => (calls caller).meets
  refine Pool.Runs.rely (fun trace (shared : Memory) => Sound shared (holdsOf calls trace)) ?_
    initially (sound_initial initial) ?_ ?_ ?_ runs
  · intro trace shared caller state op answer after sound answers
    exact sound.expects answers
  · intro trace shared caller op answer after sound allowed answers
    rw [holdsOf_performed]
    exact sound.step allowed answers
  · intro trace shared caller outcome sound ended
    rw [holdsOf_returned]
    exact sound
  · intro trace shared after sound drifts
    rw [holdsOf_drifted]
    exact sound.drift drifts

/-- Freeing is safe whatever is freed: in every interleaving of calls, with callers that
free any pointer at any time, the registry holds live blocks of the library with their
sizes, the allocator is never given anything but such a block with its own layout, and
zeros are never written outside of one. -/
theorem frees_are_safe (initial : memory.Initial)
    (runs : Pool.Runs (heap arena mayFree) (callers memory calls) trace pool) :
    (∀ ptr size, pool.shared.allocations ptr = some size → pool.shared.IsOurs ptr size) ∧
      (∀ ptr size, Misuse.badDealloc ptr size ∉ pool.shared.misuse) ∧
      ∀ ptr count, Misuse.strayWipe ptr count ∉ pool.shared.misuse := by
  obtain ⟨sound, -⟩ := sound_of_runs initial runs
  refine ⟨fun ptr size found => (sound.registered ptr size found).ours, ?_, ?_⟩
  · intro ptr size member
    exact sound.blameless _ member trivial
  · intro ptr count member
    exact sound.blameless _ member trivial

end Interleaved

/-! ### A run -/

/-- An engine whose keys are single bytes. -/
def tinyEngine : Engine where
  crypto := Envelope.transparent
  provider :=
    { PublicKey := Unit
      SecretKey := Unit
      Seed := Unit
      Coins := Unit
      suiteKem := 0
      kemCiphertextBytes := 0
      kemPublicKeyBytes := 1
      kemSecretKeyBytes := 1
      keygen := fun _ => ((), ())
      encapsulate := fun _ _ => .error ⟨⟩
      decapsulate := fun _ _ => .error ⟨⟩
      publicKeyBytes := fun _ => [7]
      publicKeyOf := fun key => key }
  publicKeyFromBytes _ := .error ⟨⟩
  secretKeyToBytes _ := [9]
  secretKeyFromBytes _ := .error ⟨⟩

/-- Memory with nothing in it. -/
def emptyMemory : Memory := ⟨fun _ => none, fun _ => none, fun _ => false, []⟩

theorem emptyMemory_initial : emptyMemory.Initial := by
  constructor
  · rintro ptr size ⟨block, found, -⟩
    cases found
  · exact fun _ => rfl
  · exact fun _ => rfl
  · rfl

theorem null_notMem_above : null ∉ {ptr : Address | 16 ≤ ptr} := by decide

theorem dangling_notMem_above : dangling ∉ {ptr : Address | 16 ≤ ptr} := by decide

/-- An allocator with room. -/
def manyAddresses : Arena :=
  ⟨{ptr | 16 ≤ ptr}, null_notMem_above, dangling_notMem_above⟩

theorem mem_manyAddresses (more : Nat) : 16 + more ∈ manyAddresses.addresses :=
  Nat.le_add_right 16 more

/-- One caller generates a pair, another frees the public key, with a wrong length. The third
frees a stray pointer. -/
def keygenThenFrees (stray : Address) : Fin 3 → Call
  | 0 => .keygen tinyEngine () ⟨true, true, true, true⟩
  | 1 => .free 16 0
  | 2 => .free stray 0

section Steps

variable {ι : Type} [DecidableEq ι] {arena : Arena} {mayFree : Memory → Address → Prop}
  {trace : CallTrace ι} {pool start : Callers ι}

/-- One operation of a running call. -/
theorem does {after : Memory} (caller : ι) (op : Op) {next : op.Ret → Code Status}
    (answer : op.Ret) (runs : Pool.Runs (heap arena mayFree) start trace pool)
    (waiting : pool.thread caller = .running (.perform op next))
    (answers : Memory.Answers arena mayFree pool.shared op answer after) :
    Pool.Runs (heap arena mayFree) start (trace ++ [⟨pool.shared, .performed caller op answer⟩])
      ⟨after, Function.update pool.thread caller (.running (next answer))⟩ :=
  runs.step (.perform waiting answers)

/-- A call returns. -/
theorem ends {program : Code Status} {status : Status} (caller : ι)
    (runs : Pool.Runs (heap arena mayFree) start trace pool)
    (waiting : pool.thread caller = .running program)
    (ended : program.outcome? = some (.ok status)) :
    Pool.Runs (heap arena mayFree) start (trace ++ [⟨pool.shared, .returned caller (.ok status)⟩])
        ⟨pool.shared, Function.update pool.thread caller (.finished (.ok status))⟩ ∧
      Returned (trace ++ [⟨pool.shared, .returned caller (.ok status)⟩]) caller (.ok status) :=
  ⟨runs.step (.return waiting ended), pool.shared,
    List.mem_append_right _ (List.mem_singleton_self _)⟩

end Steps

/-- The stray pointer is freed while the public key is. -/
theorem keygenThenFrees_runs (mayFree : Memory → Address → Prop) (stray : Address)
    (some : stray ≠ null) (mayOwned : ∀ memory, memory.owned 16 = true → mayFree memory 16)
    (mayStray : ∀ memory, mayFree memory stray) :
    ∃ (trace : CallTrace (Fin 3)) (pool : Callers (Fin 3)),
      Pool.Runs (heap manyAddresses mayFree) (callers emptyMemory (keygenThenFrees stray)) trace
        pool ∧ (∀ caller, Returned trace caller (.ok .ok)) ∧ pool.shared.IsOurs 17 1 ∧
        pool.shared.blocks 16 = none := by
  obtain _ | below := stray
  · cases some rfl
  have start : Pool.Runs (heap manyAddresses mayFree)
    (callers emptyMemory (keygenThenFrees (below + 1))) [] _ := .refl
  have cleared := does 0 (.setOutput .first null 0) () start rfl rfl
  have both := does 0 (.setOutput .second null 0) () cleared rfl rfl
  have place := does 0 (.alloc 1) (Option.some 16) both rfl
    ⟨mem_manyAddresses 0, rfl, [0], rfl, rfl⟩
  have known := does 0 (.insert 16 1) () place rfl rfl
  have filled := does 0 (.copyNonoverlapping 16 [7]) () known rfl rfl
  have handed := does 0 (.setOutput .first 16 1) () filled rfl rfl
  -- the public key is being freed before there is a secret key
  have surrendered := does 1 (.callFree 16) () handed rfl ⟨mayOwned _ rfl, rfl⟩
  have removed := does 1 (.remove 16) (Option.some 1) surrendered rfl ⟨rfl, rfl⟩
  have again := does 0 (.alloc 1) (Option.some 17) removed rfl
    ⟨mem_manyAddresses 1, rfl, [0], rfl, rfl⟩
  have unregistered : ∀ ptr, Function.update (Function.update (fun _ => none) 16 (Option.some 1))
      16 none ptr = (none : Option Nat) := by
    intro ptr
    rw [Function.update_idem, Function.update_eq_self_iff.mpr rfl]
  have strayed := does 2 (.callFree (below + 1)) () again rfl ⟨mayStray _, rfl⟩
  have unknown := does 2 (.remove (below + 1)) none strayed rfl
    ⟨(unregistered _).symm, rfl⟩
  obtain ⟨ended, ignored⟩ := ends 2 unknown rfl rfl
  have wiped := does 1 (.writeBytes 16 1) () ended rfl rfl
  have recorded := does 0 (.insert 17 1) () wiped rfl rfl
  have copied := does 0 (.copyNonoverlapping 17 [9]) () recorded rfl rfl
  have gone := does 1 (.dealloc 16 1) () copied rfl rfl
  have given := does 0 (.setOutput .second 17 1) () gone rfl rfl
  obtain ⟨returned, freed⟩ := ends 1 given rfl rfl
  obtain ⟨last, generated⟩ := ends 0 returned rfl rfl
  refine ⟨_, _, last, fun caller => ?_, ⟨_, rfl, rfl, rfl⟩, rfl⟩
  match caller with
  | 0 => exact generated
  | 1 => exact freed.append [_]
  | 2 => exact ((((((ignored.append [_]).append [_]).append [_]).append [_]).append [_]).append
      [_]).append [_]

/-- The third caller frees the public key once more, while it is being freed and owned by
nobody. -/
theorem second_free_ignored : ∃ (trace : CallTrace (Fin 3)) (pool : Callers (Fin 3)),
    Pool.Runs (heap manyAddresses anyFree) (callers emptyMemory (keygenThenFrees 16)) trace pool ∧
      Returned trace 2 (.ok .ok) ∧ pool.shared.blocks 16 = none ∧
      (∀ ptr size, Misuse.badDealloc ptr size ∉ pool.shared.misuse) ∧
      ∀ ptr count, Misuse.strayWipe ptr count ∉ pool.shared.misuse := by
  obtain ⟨trace, pool, runs, returned, -, gone⟩ :=
    keygenThenFrees_runs anyFree 16 (by decide) (fun _ _ => trivial) fun _ => trivial
  exact ⟨trace, pool, runs, returned 2, gone, (frees_are_safe emptyMemory_initial runs).2⟩

end Citadel.Ffi
