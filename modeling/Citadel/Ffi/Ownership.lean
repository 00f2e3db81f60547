import Citadel.Ffi.Frees

/-!
# Buffers have one owner

When callers give back only what they own, every buffer has one owner at every moment: the
call that is producing it, the caller it was handed to, or the call that is freeing it. So
nothing is misused at all, what a caller is handed is what was computed, and when no call
is running the buffers of the library are those that callers own.
-/

namespace Citadel.Ffi

open Program

/-- The buffer that a call handles. -/
def Hold.handles : Hold → Option Address
  | .nothing => none
  | .fresh ptr _ => some ptr
  | .registered ptr _ => some ptr
  | .filled ptr _ => some ptr
  | .surrendered ptr => some ptr
  | .removed ptr _ => some ptr
  | .wiped ptr _ => some ptr

/-- What memory holds for a call. -/
def Hold.Fits (arena : Arena) (memory : Memory) : Hold → Prop
  | .nothing => True
  | .fresh _ _ => True
  | .registered ptr size => memory.allocations ptr = some size
  | .filled ptr data =>
      memory.allocations ptr = some data.length ∧ memory.blocks ptr = some ⟨data, true⟩
  | .surrendered ptr => ptr ∈ arena.addresses → ∃ size, memory.allocations ptr = some size
  | .removed _ _ => True
  | .wiped ptr size => memory.blocks ptr = some ⟨List.replicate size 0, true⟩

/-- Memory has not changed at an address. -/
structure AgreeAt (before after : Memory) (ptr : Address) : Prop where
  blocks : after.blocks ptr = before.blocks ptr
  allocations : after.allocations ptr = before.allocations ptr
  owned : after.owned ptr = before.owned ptr

section AgreeAt

variable {memory : Memory} {ptr other : Address}

theorem agreeAt_setBlock {block : Option Block} (different : other ≠ ptr) :
    AgreeAt memory (memory.setBlock ptr block) other :=
  ⟨Memory.setBlock_of_ne different, rfl, rfl⟩

theorem agreeAt_setAllocation {found : Option Nat} (different : other ≠ ptr) :
    AgreeAt memory (memory.setAllocation ptr found) other :=
  ⟨rfl, Memory.setAllocation_of_ne different, rfl⟩

theorem agreeAt_setOwned {owned : Bool} (different : other ≠ ptr) :
    AgreeAt memory (memory.setOwned ptr owned) other :=
  ⟨rfl, rfl, Function.update_of_ne different _ _⟩

end AgreeAt

section Accounted

variable {ι : Type} {arena : Arena} {memory after : Memory} {holds : ι → Hold}

theorem Hold.Fits.congr {hold : Hold} (fits : hold.Fits arena memory)
    (agree : ∀ ptr, hold.handles = some ptr → AgreeAt memory after ptr) :
    hold.Fits arena after := by
  cases hold with
  | nothing => trivial
  | fresh ptr size => trivial
  | registered ptr size => exact (agree ptr rfl).allocations.trans fits
  | filled ptr data =>
      exact ⟨(agree ptr rfl).allocations.trans fits.1, (agree ptr rfl).blocks.trans fits.2⟩
  | surrendered ptr =>
      intro inside
      obtain ⟨size, found⟩ := fits inside
      exact ⟨size, (agree ptr rfl).allocations.trans found⟩
  | removed ptr size => trivial
  | wiped ptr size => exact (agree ptr rfl).blocks.trans fits

/-- Every buffer has one owner. -/
structure Accounted (arena : Arena) (memory : Memory) (holds : ι → Hold) : Prop where
  fits : ∀ caller, (holds caller).Fits arena memory
  handled : ∀ caller ptr, (holds caller).handles = some ptr → ptr ∈ arena.addresses →
    memory.owned ptr = false
  apart : ∀ caller other ptr, (holds caller).handles = some ptr → (holds other).handles = some ptr →
    ptr ∈ arena.addresses → caller = other
  owned : ∀ ptr, memory.owned ptr = true → ∃ size, memory.allocations ptr = some size
  accounted : ∀ ptr size, memory.IsOurs ptr size →
    memory.owned ptr = true ∨ ∃ caller, (holds caller).handles = some ptr
  inside : ∀ ptr size, memory.IsOurs ptr size → ptr ∈ arena.addresses
  blameless : memory.misuse = []

/-- A buffer that is handled is a live block, unless it was surrendered and never was one. -/
theorem Accounted.live (accounted : Accounted arena memory holds) (sound : Sound memory holds)
    {caller : ι} {ptr : Address} (handles : (holds caller).handles = some ptr) :
    (∃ size, memory.IsOurs ptr size) ∨
      holds caller = .surrendered ptr ∧ ptr ∉ arena.addresses := by
  have fits := accounted.fits caller
  cases hold : holds caller with
  | nothing =>
      rw [hold] at handles
      cases handles
  | fresh other size =>
      rw [hold] at handles
      cases handles
      exact .inl ⟨size, (sound.held caller ptr size (by rw [hold]; rfl)).1.ours⟩
  | registered other size =>
      rw [hold] at handles fits
      cases handles
      exact .inl ⟨size, (sound.registered ptr size fits).ours⟩
  | filled other data =>
      rw [hold] at handles fits
      cases handles
      exact .inl ⟨_, (sound.registered ptr _ fits.1).ours⟩
  | surrendered other =>
      rw [hold] at handles fits
      cases handles
      by_cases within : ptr ∈ arena.addresses
      · obtain ⟨size, found⟩ := fits within
        exact .inl ⟨size, (sound.registered ptr size found).ours⟩
      · exact .inr ⟨rfl, within⟩
  | removed other size =>
      rw [hold] at handles
      cases handles
      exact .inl ⟨size, (sound.held caller ptr size (by rw [hold]; rfl)).1.ours⟩
  | wiped other size =>
      rw [hold] at handles
      cases handles
      exact .inl ⟨size, (sound.held caller ptr size (by rw [hold]; rfl)).1.ours⟩

/-- An address that is owned or handled inside the arena is not vacant. -/
theorem Accounted.vacant (accounted : Accounted arena memory holds) (sound : Sound memory holds)
    {ptr : Address} (within : ptr ∈ arena.addresses) (dead : ∀ size, ¬ memory.IsOurs ptr size) :
    memory.owned ptr = false ∧ ∀ caller, (holds caller).handles ≠ some ptr := by
  constructor
  · cases owned : memory.owned ptr with
    | false => rfl
    | true =>
        obtain ⟨size, found⟩ := accounted.owned ptr owned
        exact absurd (sound.registered ptr size found).ours (dead size)
  · intro caller handles
    rcases accounted.live sound handles with ⟨size, ours⟩ | ⟨-, without⟩
    · exact dead size ours
    · exact without within

/-- What other code of the process may do. -/
theorem Accounted.drift (accounted : Accounted arena memory holds) (sound : Sound memory holds)
    (drifts : memory.Drifts after) : Accounted arena after holds := by
  have kept : ∀ ptr, memory.owned ptr = false → (∃ size, memory.IsOurs ptr size) →
      after.blocks ptr = memory.blocks ptr := by
    rintro ptr unowned ⟨size, ours⟩
    rcases drifts.blocks ptr with same | ⟨foreign, -⟩ | ⟨owned, -⟩
    · exact same
    · exact absurd ours (foreign size)
    · rw [unowned] at owned
      cases owned
  have back : ∀ ptr size, after.IsOurs ptr size → ∃ count, memory.IsOurs ptr count := by
    intro ptr size ours
    rcases drifts.blocks ptr with same | ⟨-, foreign⟩ | ⟨owned, -⟩
    · exact ⟨size, (Memory.isOurs_congr same).mp ours⟩
    · exact absurd ours (foreign size)
    · obtain ⟨count, found⟩ := accounted.owned ptr owned
      exact ⟨count, (sound.registered ptr count found).ours⟩
  constructor
  · intro caller
    have fits := accounted.fits caller
    have agree : ∀ ptr, (holds caller).handles = some ptr → after.blocks ptr = memory.blocks ptr ∨
        holds caller = .surrendered ptr := by
      intro ptr handles
      rcases accounted.live sound handles with ⟨size, ours⟩ | ⟨surrendered, -⟩
      · have within := accounted.inside ptr size ours
        exact .inl (kept ptr (accounted.handled caller ptr handles within) ⟨size, ours⟩)
      · exact .inr surrendered
    cases hold : holds caller with
    | nothing => trivial
    | fresh ptr size => trivial
    | registered ptr size =>
        rw [hold] at fits
        exact (congrFun drifts.allocations ptr).trans fits
    | filled ptr data =>
        rw [hold] at fits agree
        refine ⟨(congrFun drifts.allocations ptr).trans fits.1, ?_⟩
        rcases agree ptr rfl with same | other
        · exact same.trans fits.2
        · cases other
    | surrendered ptr =>
        rw [hold] at fits
        intro within
        rw [drifts.allocations]
        exact fits within
    | removed ptr size => trivial
    | wiped ptr size =>
        rw [hold] at fits agree
        rcases agree ptr rfl with same | other
        · exact same.trans fits
        · cases other
  · intro caller ptr handles within
    rw [drifts.owned]
    exact accounted.handled caller ptr handles within
  · exact accounted.apart
  · intro ptr owned
    rw [drifts.owned] at owned
    rw [drifts.allocations]
    exact accounted.owned ptr owned
  · intro ptr size ours
    obtain ⟨count, before⟩ := back ptr size ours
    rw [drifts.owned]
    exact accounted.accounted ptr count before
  · intro ptr size ours
    obtain ⟨count, before⟩ := back ptr size ours
    exact accounted.inside ptr count before
  · exact drifts.misuse.trans accounted.blameless

variable {caller : ι} {ptr : Address} {hold : Hold}

/-- What a call handles inside the arena is handled by no other. -/
theorem Accounted.alone (accounted : Accounted arena memory holds) (sound : Sound memory holds)
    (handles : (holds caller).handles = some ptr) {other : ι} (different : other ≠ caller)
    (also : (holds other).handles = some ptr) :
    ptr ∉ arena.addresses ∧ holds other = .surrendered ptr := by
  have without : ptr ∉ arena.addresses :=
    fun within => different (accounted.apart other caller ptr also handles within)
  rcases accounted.live sound also with ⟨size, ours⟩ | ⟨surrendered, -⟩
  · exact absurd (accounted.inside ptr size ours) without
  · exact ⟨without, surrendered⟩

variable [DecidableEq ι]

/-- What a call handles after it has moved on. -/
theorem handles_update (other : ι) :
    (Function.update holds caller hold other).handles =
      if other = caller then hold.handles else (holds other).handles := by
  by_cases same : other = caller
  · subst same
    rw [if_pos rfl, Function.update_self]
  · rw [if_neg same, Function.update_of_ne same]

/-- One call moves on and changes memory at one address that it alone handles. -/
theorem Accounted.moveAt (accounted : Accounted arena memory holds)
    (before : ∀ other, (holds caller).handles = some other → other = ptr)
    (agree : ∀ other, other ≠ ptr → AgreeAt memory after other)
    (alone : ∀ other, other ≠ caller → (holds other).handles = some ptr →
      ptr ∉ arena.addresses ∧ holds other = .surrendered ptr)
    (handles : ∀ other, hold.handles = some other → other = ptr)
    (fits : hold.Fits arena after)
    (here : after.owned ptr = true →
      hold.handles = none ∧ ∃ size, after.allocations ptr = some size)
    (live : ∀ size, after.IsOurs ptr size →
      ptr ∈ arena.addresses ∧ (after.owned ptr = true ∨ hold.handles = some ptr))
    (blameless : after.misuse = []) :
    Accounted arena after (Function.update holds caller hold) where
  fits := by
    intro other
    by_cases same : other = caller
    · subst same
      rw [Function.update_self]
      exact fits
    · rw [Function.update_of_ne same]
      by_cases foreign : (holds other).handles = some ptr
      · obtain ⟨without, surrendered⟩ := alone other same foreign
        rw [surrendered]
        exact fun within => absurd within without
      · refine (accounted.fits other).congr fun address handled => agree address ?_
        rintro rfl
        exact foreign handled
  handled := by
    intro other address handled within
    rw [handles_update] at handled
    split at handled
    · obtain rfl := handles address handled
      cases owned : after.owned address with
      | false => rfl
      | true =>
          rw [(here owned).1] at handled
          cases handled
    · rename_i different
      by_cases same : address = ptr
      · subst same
        exact absurd within (alone other different handled).1
      · rw [(agree address same).owned]
        exact accounted.handled other address handled within
  apart := by
    intro left right address leftHandles rightHandles within
    rw [handles_update] at leftHandles rightHandles
    split at leftHandles
    · rename_i leftOwn
      split at rightHandles
      · rename_i rightOwn
        rw [leftOwn, rightOwn]
      · rename_i different
        obtain rfl := handles address leftHandles
        exact absurd within (alone right different rightHandles).1
    · rename_i different
      split at rightHandles
      · obtain rfl := handles address rightHandles
        exact absurd within (alone left different leftHandles).1
      · exact accounted.apart left right address leftHandles rightHandles within
  owned := by
    intro address owned
    by_cases same : address = ptr
    · subst same
      exact (here owned).2
    · rw [(agree address same).owned] at owned
      rw [(agree address same).allocations]
      exact accounted.owned address owned
  accounted := by
    intro address size ours
    by_cases same : address = ptr
    · subst same
      rcases (live size ours).2 with owned | handled
      · exact .inl owned
      · refine .inr ⟨caller, ?_⟩
        rw [Function.update_self]
        exact handled
    · rw [Memory.isOurs_congr (agree address same).blocks] at ours
      rw [(agree address same).owned]
      rcases accounted.accounted address size ours with owned | ⟨other, handled⟩
      · exact .inl owned
      · refine .inr ⟨other, ?_⟩
        have different : other ≠ caller := by
          rintro rfl
          exact same (before address handled)
        rw [Function.update_of_ne different]
        exact handled
  inside := by
    intro address size ours
    by_cases same : address = ptr
    · subst same
      exact (live size ours).1
    · rw [Memory.isOurs_congr (agree address same).blocks] at ours
      exact accounted.inside address size ours
  blameless := blameless

/-- A call handles one block at a time. -/
theorem handles_unique {held : Hold} (handles : held.handles = some ptr) (other : Address)
    (also : held.handles = some other) : other = ptr :=
  Option.some.inj (also.symm.trans handles)

/-! ### The operations -/

variable {results : Results} {size : Nat}

/-- A new block is handled by the call that allocated it. -/
theorem Accounted.alloc {answer : Op.Ret (.alloc size)} (accounted : Accounted arena memory holds)
    (sound : Sound memory holds) (allowed : (holds caller).allows results (.alloc size))
    (answers : memory.Answers arena (ownerFrees arena) (.alloc size) answer after) :
    Accounted arena after
      (Function.update holds caller ((holds caller).next (.alloc size) answer)) := by
  obtain ⟨idle, positive, small⟩ := Hold.allows_alloc allowed
  rw [idle]
  cases answer with
  | none =>
      obtain rfl : after = memory := answers
      change Accounted arena after (Function.update holds caller .nothing)
      rw [← idle, Function.update_eq_self]
      exact accounted
  | some ptr =>
      obtain ⟨within, vacant, bytes, length, rfl⟩ := answers
      obtain ⟨unowned, unhandled⟩ := accounted.vacant sound within (by
        rintro count ⟨block, found, -, -⟩
        rw [vacant] at found
        cases found)
      refine accounted.moveAt (fun other handled => ?_) (fun _ => agreeAt_setBlock)
        (fun other _ handled => absurd handled (unhandled other))
        (fun _ handled => (Option.some.inj handled).symm) trivial (fun owned => ?_)
        (fun _ _ => ⟨within, .inr rfl⟩) accounted.blameless
      · rw [idle] at handled
        cases handled
      · rw [Memory.setBlock_owned, unowned] at owned
        cases owned

/-- The block is registered, and still handled by the call. -/
theorem Accounted.insert {answer : Op.Ret (.insert ptr size)}
    (accounted : Accounted arena memory holds) (sound : Sound memory holds)
    (allowed : (holds caller).allows results (.insert ptr size))
    (answers : memory.Answers arena (ownerFrees arena) (.insert ptr size) answer after) :
    Accounted arena after
      (Function.update holds caller ((holds caller).next (.insert ptr size) answer)) := by
  have fresh := Hold.allows_insert allowed
  obtain rfl : after = memory.setAllocation ptr (some size) := answers
  have handles : (holds caller).handles = some ptr := by
    rw [fresh]
    rfl
  have within := accounted.inside ptr size
    (sound.held caller ptr size (by rw [fresh]; rfl)).1.ours
  have unowned := accounted.handled caller ptr handles within
  rw [fresh]
  refine accounted.moveAt (handles_unique handles) (fun _ => agreeAt_setAllocation)
    (fun other different also => accounted.alone sound handles different also)
    (fun _ handled => (Option.some.inj handled).symm) Memory.setAllocation_self
    (fun owned => ?_) (fun _ _ => ⟨within, .inr rfl⟩) accounted.blameless
  rw [Memory.setAllocation_owned, unowned] at owned
  cases owned

/-- The block that is filled is the one the call handles. -/
theorem Accounted.copyNonoverlapping {data : Bytes} {answer : Op.Ret (.copyNonoverlapping ptr data)}
    (accounted : Accounted arena memory holds) (sound : Sound memory holds)
    (allowed : (holds caller).allows results (.copyNonoverlapping ptr data))
    (answers :
      memory.Answers arena (ownerFrees arena) (.copyNonoverlapping ptr data) answer after) :
    Accounted arena after
      (Function.update holds caller
        ((holds caller).next (.copyNonoverlapping ptr data) answer)) := by
  obtain rfl : after = memory.write ptr data (.strayCopy ptr data.length) := answers
  rcases Hold.allows_copy allowed with ⟨idle, rfl⟩ | registered
  · rw [idle]
    change Accounted arena memory (Function.update holds caller .nothing)
    rw [← idle, Function.update_eq_self]
    exact accounted
  · have handles : (holds caller).handles = some ptr := by
      rw [registered]
      rfl
    have fits := accounted.fits caller
    rw [registered] at fits
    obtain ⟨positive, small, ours⟩ := sound.registered ptr _ fits
    have within := accounted.inside ptr _ ours
    have unowned := accounted.handled caller ptr handles within
    obtain ⟨block, found, -, written⟩ :=
      Memory.write_fits (.strayCopy ptr data.length) ours le_rfl
        (List.ne_nil_of_length_pos positive)
    have whole : block.bytes.drop data.length = [] := by
      obtain ⟨again, foundAgain, -, length⟩ := ours
      rw [found] at foundAgain
      cases foundAgain
      exact List.drop_eq_nil_of_le length.le
    rw [written, whole, List.append_nil, registered]
    refine accounted.moveAt (handles_unique handles) (fun _ => agreeAt_setBlock)
      (fun other different also => accounted.alone sound handles different also)
      (fun _ handled => (Option.some.inj handled).symm) ⟨fits, Memory.setBlock_self⟩
      (fun owned => ?_) (fun _ _ => ⟨within, .inr rfl⟩) accounted.blameless
    rw [Memory.setBlock_owned, unowned] at owned
    cases owned

/-- The block is handed over to the caller, or there is none. -/
theorem Accounted.setOutput {slot : Slot} {len : Nat} {answer : Op.Ret (.setOutput slot ptr len)}
    (accounted : Accounted arena memory holds) (sound : Sound memory holds)
    (allowed : (holds caller).allows results (.setOutput slot ptr len))
    (answers : memory.Answers arena (ownerFrees arena) (.setOutput slot ptr len) answer after) :
    Accounted arena after
      (Function.update holds caller ((holds caller).next (.setOutput slot ptr len) answer)) := by
  rcases Hold.allows_setOutput allowed with ⟨idle, rfl, -⟩ | ⟨data, filled, rfl, some, -⟩
  · obtain rfl : after = memory := answers
    rw [idle]
    change Accounted arena after (Function.update holds caller .nothing)
    rw [← idle, Function.update_eq_self]
    exact accounted
  · -- the buffer is handed over
    have length : data.length ≠ 0 := fun nothing => some (List.length_eq_zero_iff.mp nothing)
    obtain rfl : after = memory.setOwned ptr true := by
      have given : after = if data.length = 0 then memory else memory.setOwned ptr true :=
        answers
      rwa [if_neg length] at given
    have handles : (holds caller).handles = .some ptr := by
      rw [filled]
      rfl
    have fits := accounted.fits caller
    rw [filled] at fits
    rw [filled]
    refine accounted.moveAt (handles_unique handles) (fun _ => agreeAt_setOwned)
      (fun other different also => accounted.alone sound handles different also)
      (fun _ handled => (by cases handled)) trivial (fun _ => ⟨rfl, _, fits.1⟩)
      (fun size ours => ⟨accounted.inside ptr size ours, .inl (Function.update_self _ _ _)⟩)
      accounted.blameless

/-- The caller gives up a block that it owns, or a pointer that is none of the library. -/
theorem Accounted.callFree {answer : Op.Ret (.callFree ptr)}
    (accounted : Accounted arena memory holds) (sound : Sound memory holds)
    (allowed : (holds caller).allows results (.callFree ptr))
    (answers : memory.Answers arena (ownerFrees arena) (.callFree ptr) answer after) :
    Accounted arena after
      (Function.update holds caller ((holds caller).next (.callFree ptr) answer)) := by
  have idle := Hold.allows_callFree allowed
  obtain ⟨permitted, rfl⟩ := answers
  have unowned : (memory.setOwned ptr false).owned ptr = false := Function.update_self _ _ _
  have alone : ∀ other, other ≠ caller → (holds other).handles = some ptr →
      ptr ∉ arena.addresses ∧ holds other = .surrendered ptr := by
    intro other _ handled
    rcases accounted.live sound handled with ⟨size, ours⟩ | ⟨surrendered, without⟩
    · have within := accounted.inside ptr size ours
      rcases permitted with owned | without
      · rw [accounted.handled other ptr handled within] at owned
        cases owned
      · exact absurd within without
    · exact ⟨without, surrendered⟩
  have before : ∀ other, (holds caller).handles = some other → other = ptr := by
    intro other handled
    rw [idle] at handled
    cases handled
  have here : (memory.setOwned ptr false).owned ptr = true →
      ((holds caller).next (.callFree ptr) answer).handles = none ∧
        ∃ size, (memory.setOwned ptr false).allocations ptr = some size := by
    intro owned
    rw [unowned] at owned
    cases owned
  by_cases nothing : ptr = null
  · subst nothing
    have stays : (holds caller).next (.callFree null) answer = .nothing := by
      rw [idle]
      rfl
    rw [stays] at here ⊢
    refine accounted.moveAt before (fun _ => agreeAt_setOwned) alone
      (fun _ handled => (by cases handled)) trivial here ?_ accounted.blameless
    intro size ours
    exact absurd (accounted.inside null size ours) arena.null_notMem
  · have takes : (holds caller).next (.callFree ptr) answer = .surrendered ptr := by
      rw [idle, Hold.next, if_neg nothing]
    rw [takes] at here ⊢
    refine accounted.moveAt before (fun _ => agreeAt_setOwned) alone
      (fun _ handled => (Option.some.inj handled).symm) (fun within => ?_) here
      (fun size ours => ⟨accounted.inside ptr size ours, .inr rfl⟩) accounted.blameless
    rcases permitted with owned | without
    · exact accounted.owned ptr owned
    · exact absurd within without

/-- The block is taken from the registry by the call that it was given to. -/
theorem Accounted.remove {answer : Op.Ret (.remove ptr)} (accounted : Accounted arena memory holds)
    (sound : Sound memory holds) (allowed : (holds caller).allows results (.remove ptr))
    (answers : memory.Answers arena (ownerFrees arena) (.remove ptr) answer after) :
    Accounted arena after
      (Function.update holds caller ((holds caller).next (.remove ptr) answer)) := by
  have surrendered := Hold.allows_remove allowed
  obtain ⟨rfl, rfl⟩ := answers
  have handles : (holds caller).handles = some ptr := by
    rw [surrendered]
    rfl
  have fits := accounted.fits caller
  rw [surrendered] at fits
  have alone : ∀ other, other ≠ caller → (holds other).handles = some ptr →
      ptr ∉ arena.addresses ∧ holds other = .surrendered ptr :=
    fun other different also => accounted.alone sound handles different also
  have unowned : memory.owned ptr = true → False := by
    intro owned
    obtain ⟨size, found⟩ := accounted.owned ptr owned
    have within := accounted.inside ptr size (sound.registered ptr size found).ours
    rw [accounted.handled caller ptr handles within] at owned
    cases owned
  rw [surrendered]
  cases found : memory.allocations ptr with
  | none =>
      refine accounted.moveAt (handles_unique handles) (fun _ => agreeAt_setAllocation) alone
        (fun _ handled => (by cases handled)) trivial (fun owned => (unowned owned).elim) ?_
        accounted.blameless
      intro size ours
      obtain ⟨count, registered⟩ := fits (accounted.inside ptr size ours)
      rw [found] at registered
      cases registered
  | some size =>
      exact accounted.moveAt (handles_unique handles) (fun _ => agreeAt_setAllocation) alone
        (fun _ handled => (Option.some.inj handled).symm) trivial
        (fun owned => (unowned owned).elim)
        (fun count ours => ⟨accounted.inside ptr count ours, .inr rfl⟩) accounted.blameless

/-- The block is wiped by the call that took it. -/
theorem Accounted.writeBytes {answer : Op.Ret (.writeBytes ptr size)}
    (accounted : Accounted arena memory holds) (sound : Sound memory holds)
    (allowed : (holds caller).allows results (.writeBytes ptr size))
    (answers : memory.Answers arena (ownerFrees arena) (.writeBytes ptr size) answer after) :
    Accounted arena after
      (Function.update holds caller ((holds caller).next (.writeBytes ptr size) answer)) := by
  have removed := Hold.allows_writeBytes allowed
  obtain rfl : after = memory.write ptr (List.replicate size 0) (.strayWipe ptr size) := answers
  have handles : (holds caller).handles = some ptr := by
    rw [removed]
    rfl
  obtain ⟨positive, small, ours⟩ := (sound.held caller ptr size (by rw [removed]; rfl)).1
  have within := accounted.inside ptr size ours
  have unowned := accounted.handled caller ptr handles within
  obtain ⟨block, found, -, written⟩ := Memory.write_fits (.strayWipe ptr size) ours
    (List.length_replicate ..).le (fun nothing => positive.ne' (by simpa using nothing))
  have whole : block.bytes.drop (List.replicate size (0 : UInt8)).length = [] := by
    obtain ⟨again, foundAgain, -, length⟩ := ours
    rw [found] at foundAgain
    cases foundAgain
    rw [List.length_replicate]
    exact List.drop_eq_nil_of_le length.le
  rw [written, whole, List.append_nil, removed]
  refine accounted.moveAt (handles_unique handles) (fun _ => agreeAt_setBlock)
    (fun other different also => accounted.alone sound handles different also)
    (fun _ handled => (Option.some.inj handled).symm) Memory.setBlock_self
    (fun owned => ?_) (fun _ _ => ⟨within, .inr rfl⟩) accounted.blameless
  rw [Memory.setBlock_owned, unowned] at owned
  cases owned

/-- The block is gone, and nobody handles it. -/
theorem Accounted.dealloc {answer : Op.Ret (.dealloc ptr size)}
    (accounted : Accounted arena memory holds) (sound : Sound memory holds)
    (allowed : (holds caller).allows results (.dealloc ptr size))
    (answers : memory.Answers arena (ownerFrees arena) (.dealloc ptr size) answer after) :
    Accounted arena after
      (Function.update holds caller ((holds caller).next (.dealloc ptr size) answer)) := by
  have wiped := Hold.allows_dealloc allowed
  obtain rfl : after = memory.dealloc ptr size := answers
  have handles : (holds caller).handles = some ptr := by
    rw [wiped]
    rfl
  obtain ⟨-, -, ours⟩ := (sound.held caller ptr size (by rw [wiped]; rfl)).1
  have within := accounted.inside ptr size ours
  have unowned := accounted.handled caller ptr handles within
  have fits := accounted.fits caller
  rw [wiped] at fits
  have zeros : memory.blocks ptr = some ⟨List.replicate size 0, true⟩ := fits
  obtain ⟨block, found, freed⟩ := Memory.dealloc_ours ours
  rw [zeros] at found
  cases found
  rw [if_pos (by simp)] at freed
  rw [freed, wiped]
  refine accounted.moveAt (handles_unique handles) (fun _ => agreeAt_setBlock)
    (fun other different also => accounted.alone sound handles different also)
    (fun _ handled => (by cases handled)) trivial (fun owned => ?_) ?_ accounted.blameless
  · rw [Memory.setBlock_owned, unowned] at owned
    cases owned
  · rintro count ⟨block, found, -, -⟩
    rw [Memory.setBlock_self] at found
    cases found

/-- One operation of a call, when callers free only what they own. -/
theorem Accounted.step {op : Op} {answer : op.Ret} (accounted : Accounted arena memory holds)
    (sound : Sound memory holds) (allowed : (holds caller).allows results op)
    (answers : memory.Answers arena (ownerFrees arena) op answer after) :
    Accounted arena after (Function.update holds caller ((holds caller).next op answer)) := by
  cases op with
  | alloc size => exact accounted.alloc sound allowed answers
  | insert ptr size => exact accounted.insert sound allowed answers
  | copyNonoverlapping ptr data => exact accounted.copyNonoverlapping sound allowed answers
  | setOutput slot ptr len => exact accounted.setOutput sound allowed answers
  | callFree ptr => exact accounted.callFree sound allowed answers
  | remove ptr => exact accounted.remove sound allowed answers
  | writeBytes ptr size => exact accounted.writeBytes sound allowed answers
  | dealloc ptr size => exact accounted.dealloc sound allowed answers

end Accounted

/-! ### In an interleaving -/

section Interleaved

variable {ι : Type} [DecidableEq ι] {arena : Arena} {mayFree : Memory → Address → Prop}
  {memory : Memory} {calls : ι → Call} {trace : CallTrace ι} {pool : Callers ι}

theorem accounted_initial (initial : memory.Initial) :
    Accounted arena memory (holdsOf calls ([] : CallTrace ι)) := by
  constructor
  · intro caller
    trivial
  · intro caller ptr handles
    cases handles
  · intro caller other ptr handles
    cases handles
  · intro ptr owned
    rw [initial.owned ptr] at owned
    cases owned
  · intro ptr size ours
    exact absurd ours (initial.blocks ptr size)
  · intro ptr size ours
    exact absurd ours (initial.blocks ptr size)
  · exact initial.misuse

/-- Every buffer has one owner, whatever the order of the calls. -/
theorem accounted_of_runs (initial : memory.Initial)
    (runs : Pool.Runs (heap arena (ownerFrees arena)) (callers memory calls) trace pool) :
    Accounted arena pool.shared (holdsOf calls trace) := by
  refine Pool.Runs.invariant (fun trace (pool : Callers ι) =>
    Accounted arena pool.shared (holdsOf calls trace)) (accounted_initial initial) ?_ runs
  intro trace pool event next prior accounted transition
  obtain ⟨sound, meets⟩ := sound_of_runs initial prior
  cases transition with
  | @perform caller op following answer after running answers =>
      have allowed := meets caller
      rw [running] at allowed
      rw [holdsOf_performed]
      exact accounted.step sound allowed.1 answers
  | @«return» caller program outcome running ended =>
      rw [holdsOf_returned]
      exact accounted
  | drift drifts =>
      rw [holdsOf_drifted]
      exact accounted.drift sound drifts

/-- A call that has returned holds nothing. -/
theorem holds_of_returned (initial : memory.Initial)
    (runs : Pool.Runs (heap arena mayFree) (callers memory calls) trace pool) {caller : ι}
    {outcome : Outcome Empty Status} (returned : Returned trace caller outcome) :
    (calls caller).Ends (progressOf calls trace caller) outcome := by
  have meets := (sound_of_runs initial runs).2 caller
  rw [runs.finished_of_returned returned] at meets
  exact meets

/-- The contract on memory: when callers free only what they own, in every interleaving
nothing is misused (no write outside of a live block, no free of anything else, nothing
given back unwiped), every buffer that a caller owns is a live registered block, and when
all calls have returned the library has no other block. -/
theorem memory_contract (initial : memory.Initial)
    (runs : Pool.Runs (heap arena (ownerFrees arena)) (callers memory calls) trace pool) :
    pool.shared.misuse = [] ∧
      (∀ ptr, pool.shared.owned ptr = true →
        ∃ size, pool.shared.allocations ptr = some size ∧ pool.shared.IsOurs ptr size) ∧
      ((∀ caller, ∃ outcome, Returned trace caller outcome) →
        ∀ ptr size, pool.shared.IsOurs ptr size ↔
          pool.shared.owned ptr = true ∧ pool.shared.allocations ptr = some size) := by
  obtain ⟨sound, -⟩ := sound_of_runs initial runs
  have accounted := accounted_of_runs initial runs
  have live : ∀ ptr, pool.shared.owned ptr = true →
      ∃ size, pool.shared.allocations ptr = some size ∧ pool.shared.IsOurs ptr size := by
    intro ptr owned
    obtain ⟨size, found⟩ := accounted.owned ptr owned
    exact ⟨size, found, (sound.registered ptr size found).ours⟩
  refine ⟨accounted.blameless, live, fun ended ptr size => ?_⟩
  constructor
  · intro ours
    rcases accounted.accounted ptr size ours with owned | ⟨caller, handles⟩
    · obtain ⟨count, found, also⟩ := live ptr owned
      exact ⟨owned, also.size_eq ours ▸ found⟩
    · obtain ⟨outcome, returned⟩ := ended caller
      obtain ⟨idle, -⟩ := holds_of_returned initial runs returned
      have nothing : holdsOf calls trace caller = .nothing := idle
      rw [nothing] at handles
      cases handles
  · rintro ⟨-, found⟩
    exact (sound.registered ptr size found).ours

end Interleaved

/-- Of the two buffers handed out, the one that was freed is gone and the other is still its
owner's; a pointer that was no buffer did no harm. -/
theorem secretKey_owned : ∃ (trace : CallTrace (Fin 3)) (pool : Callers (Fin 3)),
    Pool.Runs (heap manyAddresses (ownerFrees manyAddresses))
      (callers emptyMemory (keygenThenFrees 5)) trace pool ∧ pool.shared.misuse = [] ∧
      pool.shared.blocks 16 = none ∧ pool.shared.owned 17 = true ∧
      ∀ ptr size, pool.shared.IsOurs ptr size → pool.shared.owned ptr = true := by
  obtain ⟨trace, pool, runs, returned, ours, gone⟩ :=
    keygenThenFrees_runs (ownerFrees manyAddresses) 5 (by decide) (fun _ owned => .inl owned)
      fun _ => .inr (by decide : ¬ 16 ≤ 5)
  obtain ⟨blameless, -, only⟩ := memory_contract emptyMemory_initial runs
  have ended : ∀ caller, ∃ outcome, Returned trace caller outcome :=
    fun caller => ⟨_, returned caller⟩
  exact ⟨trace, pool, runs, blameless, gone, ((only ended 17 1).mp ours).1,
    fun ptr size inside => ((only ended ptr size).mp inside).1⟩

end Citadel.Ffi
