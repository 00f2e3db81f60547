import Citadel.Data.Bytes
import Citadel.Program.Interleaving
import Mathlib.Data.Set.Basic

/-!
# The memory behind the C interface

`Op` lists what the C interface does to memory: the calls of the global allocator, the
registry of buffers under its lock, raw writes, and the pointers that are exchanged with
callers. `Memory` is the process's heap with that registry. A raw access that Rust would
call undefined is not prevented: it is recorded as `Misuse` and changes nothing else.

Each operation is atomic, and callers run in any order. Between operations other code of
the process allocates, frees and writes its own blocks, and writes to the buffers that
callers own.
-/

namespace Citadel.Ffi

/-- An address. -/
abbrev Address := Nat

/-- `std::ptr::null_mut`. -/
def null : Address := 0

/-- `NonNull::<u8>::dangling`: the alignment of a byte. -/
def dangling : Address := 1

/-- The addresses that the allocator may return. -/
structure Arena where
  addresses : Set Address
  null_notMem : null ∉ addresses
  dangling_notMem : dangling ∉ addresses

/-- A live block of the heap. -/
structure Block where
  bytes : Bytes
  /-- This library allocated it. -/
  ours : Bool
  deriving DecidableEq, Repr

/-- What must not be done to memory. -/
inductive Misuse where
  /-- Bytes were copied outside of a live block. -/
  | strayCopy (ptr : Address) (count : Nat)
  /-- Zeros were written outside of a live block. -/
  | strayWipe (ptr : Address) (count : Nat)
  /-- The allocator was given something that is no block of this library, or with a
  layout that is not its own. -/
  | badDealloc (ptr : Address) (size : Nat)
  /-- A block went back to the allocator with its contents. -/
  | unwiped (ptr : Address)
  deriving DecidableEq, Repr

/-- The heap, the registry of the library, and the buffers that callers own. -/
structure Memory where
  blocks : Address → Option Block
  /-- `ALLOCATIONS`. -/
  allocations : Address → Option Nat
  /-- A caller has been given the buffer and has not given it back. -/
  owned : Address → Bool
  misuse : List Misuse

/-- A place a call writes its results to. -/
inductive Slot where
  | first
  | second
  deriving DecidableEq, Repr

/-- What the C interface does. -/
inductive Op where
  /-- `alloc`. -/
  | alloc (size : Nat)
  /-- `lock_allocations().insert`. -/
  | insert (ptr : Address) (size : Nat)
  /-- `lock_allocations().remove`. -/
  | remove (ptr : Address)
  /-- `copy_nonoverlapping` to a buffer. -/
  | copyNonoverlapping (ptr : Address) (data : Bytes)
  /-- `*out_ptr = buf; *out_len = len`. -/
  | setOutput (slot : Slot) (ptr : Address) (len : Nat)
  /-- A caller calls `citadel_free`. -/
  | callFree (ptr : Address)
  /-- `write_bytes` with zeros. -/
  | writeBytes (ptr : Address) (count : Nat)
  /-- `dealloc`. -/
  | dealloc (ptr : Address) (size : Nat)
  deriving DecidableEq, Repr

/-- The type of the answer. -/
@[reducible] def Op.Ret : Op → Type
  | .alloc _ => Option Address
  | .remove _ => Option Nat
  | _ => Unit

namespace Memory

/-- A live block of the library of this size. -/
def IsOurs (memory : Memory) (ptr : Address) (size : Nat) : Prop :=
  ∃ block, memory.blocks ptr = some block ∧ block.ours = true ∧ block.bytes.length = size

/-- Change what is at an address. -/
def setBlock (memory : Memory) (ptr : Address) (block : Option Block) : Memory :=
  { memory with blocks := Function.update memory.blocks ptr block }

/-- Change what is registered for an address. -/
def setAllocation (memory : Memory) (ptr : Address) (size : Option Nat) : Memory :=
  { memory with allocations := Function.update memory.allocations ptr size }

/-- Change whether a caller owns the buffer at an address. -/
def setOwned (memory : Memory) (ptr : Address) (owned : Bool) : Memory :=
  { memory with owned := Function.update memory.owned ptr owned }

/-- Record a misuse. -/
def blame (memory : Memory) (what : Misuse) : Memory :=
  { memory with misuse := memory.misuse ++ [what] }

/-- Write to the start of a block. Writing nothing is allowed everywhere. -/
def write (memory : Memory) (ptr : Address) (data : Bytes) (stray : Misuse) : Memory :=
  if data = [] then memory
  else
    match memory.blocks ptr with
    | some block =>
        if data.length ≤ block.bytes.length then
          memory.setBlock ptr (some ⟨data ++ block.bytes.drop data.length, block.ours⟩)
        else memory.blame stray
    | none => memory.blame stray

/-- Give a block back to the allocator. -/
def dealloc (memory : Memory) (ptr : Address) (size : Nat) : Memory :=
  match memory.blocks ptr with
  | some block =>
      if block.ours = true ∧ block.bytes.length = size then
        if block.bytes.all (· = 0) then memory.setBlock ptr none
        else (memory.setBlock ptr none).blame (.unwiped ptr)
      else memory.blame (.badDealloc ptr size)
  | none => memory.blame (.badDealloc ptr size)

section Changes

variable {memory : Memory} {ptr other : Address} {block : Option Block} {size count : Nat}
  {data : Bytes} {stray what : Misuse}

@[simp] theorem setBlock_allocations :
    (memory.setBlock ptr block).allocations = memory.allocations := rfl

@[simp] theorem setBlock_owned : (memory.setBlock ptr block).owned = memory.owned := rfl

@[simp] theorem setBlock_misuse : (memory.setBlock ptr block).misuse = memory.misuse := rfl

@[simp] theorem setAllocation_blocks {found : Option Nat} :
    (memory.setAllocation ptr found).blocks = memory.blocks := rfl

@[simp] theorem setAllocation_owned {found : Option Nat} :
    (memory.setAllocation ptr found).owned = memory.owned := rfl

@[simp] theorem setAllocation_misuse {found : Option Nat} :
    (memory.setAllocation ptr found).misuse = memory.misuse := rfl

@[simp] theorem setOwned_blocks {owned : Bool} :
    (memory.setOwned ptr owned).blocks = memory.blocks := rfl

@[simp] theorem setOwned_allocations {owned : Bool} :
    (memory.setOwned ptr owned).allocations = memory.allocations := rfl

@[simp] theorem setOwned_misuse {owned : Bool} :
    (memory.setOwned ptr owned).misuse = memory.misuse := rfl

@[simp] theorem blame_blocks : (memory.blame what).blocks = memory.blocks := rfl

@[simp] theorem blame_allocations : (memory.blame what).allocations = memory.allocations := rfl

@[simp] theorem blame_owned : (memory.blame what).owned = memory.owned := rfl

theorem setBlock_self : (memory.setBlock ptr block).blocks ptr = block :=
  Function.update_self _ _ _

theorem setBlock_of_ne (different : other ≠ ptr) :
    (memory.setBlock ptr block).blocks other = memory.blocks other :=
  Function.update_of_ne different _ _

theorem setAllocation_self {found : Option Nat} :
    (memory.setAllocation ptr found).allocations ptr = found :=
  Function.update_self _ _ _

theorem setAllocation_of_ne {found : Option Nat} (different : other ≠ ptr) :
    (memory.setAllocation ptr found).allocations other = memory.allocations other :=
  Function.update_of_ne different _ _

/-- Being a block of the library is a fact about what is at the address. -/
theorem isOurs_congr {before after : Memory} (same : after.blocks ptr = before.blocks ptr) :
    after.IsOurs ptr size ↔ before.IsOurs ptr size := by
  unfold IsOurs
  rw [same]

/-- A block has one size. -/
theorem IsOurs.size_eq (left : memory.IsOurs ptr size) (right : memory.IsOurs ptr count) :
    size = count := by
  obtain ⟨block, found, -, rfl⟩ := left
  obtain ⟨again, foundAgain, -, rfl⟩ := right
  rw [found] at foundAgain
  cases foundAgain
  rfl

/-- What writing does, where there is room. -/
theorem write_fits (stray : Misuse) (room : memory.IsOurs ptr size) (fits : data.length ≤ size)
    (some : data ≠ []) :
    ∃ block, memory.blocks ptr = .some block ∧ block.ours = true ∧
      memory.write ptr data stray =
        memory.setBlock ptr (.some ⟨data ++ block.bytes.drop data.length, true⟩) := by
  obtain ⟨block, found, ours, rfl⟩ := room
  refine ⟨block, found, ours, ?_⟩
  rw [write, if_neg some, found]
  simp only
  rw [if_pos fits, ours]

@[simp] theorem write_allocations :
    (memory.write ptr data stray).allocations = memory.allocations := by
  unfold write
  split
  · rfl
  · split
    · split <;> rfl
    · rfl

@[simp] theorem write_owned : (memory.write ptr data stray).owned = memory.owned := by
  unfold write
  split
  · rfl
  · split
    · split <;> rfl
    · rfl

/-- Writing may only be blamed for itself. -/
theorem mem_write_misuse (member : what ∈ (memory.write ptr data stray).misuse) :
    what ∈ memory.misuse ∨ what = stray := by
  have blamed : ∀ {found : Memory}, found = memory.blame stray → what ∈ found.misuse →
      what ∈ memory.misuse ∨ what = stray := by
    rintro found rfl inside
    rcases List.mem_append.mp inside with earlier | last
    · exact .inl earlier
    · exact .inr (List.mem_singleton.mp last)
  unfold write at member
  split at member
  · exact .inl member
  · split at member
    · split at member
      · exact .inl member
      · exact blamed rfl member
    · exact blamed rfl member

/-- Writing changes neither whose a block is nor how long it is. -/
theorem isOurs_write : (memory.write ptr data stray).IsOurs other size ↔
    memory.IsOurs other size := by
  unfold write
  split
  · exact Iff.rfl
  · split
    · rename_i block found
      split
      · rename_i fits
        by_cases same : other = ptr
        · subst same
          have length : (data ++ block.bytes.drop data.length).length = block.bytes.length := by
            rw [List.length_append, List.length_drop]
            omega
          simp only [IsOurs, setBlock_self, found, Option.some.injEq, exists_eq_left', length]
        · exact isOurs_congr (setBlock_of_ne same)
      · exact Iff.rfl
    · exact Iff.rfl

/-- What giving back a block of the library does. -/
theorem dealloc_ours (ours : memory.IsOurs ptr size) :
    ∃ block, memory.blocks ptr = some block ∧ memory.dealloc ptr size =
      if block.bytes.all (· = 0) then memory.setBlock ptr none
      else (memory.setBlock ptr none).blame (.unwiped ptr) := by
  obtain ⟨block, found, owned, rfl⟩ := ours
  refine ⟨block, found, ?_⟩
  rw [dealloc, found]
  exact if_pos ⟨owned, rfl⟩

end Changes

/-- What an operation may answer and do. A new block has any contents. -/
def Answers (arena : Arena) (mayFree : Memory → Address → Prop) (memory : Memory) :
    (op : Op) → op.Ret → Memory → Prop
  | .alloc _, none, after => after = memory
  | .alloc size, some ptr, after => ptr ∈ arena.addresses ∧ memory.blocks ptr = none ∧
      ∃ bytes : Bytes, bytes.length = size ∧ after = memory.setBlock ptr (some ⟨bytes, true⟩)
  | .insert ptr size, _, after => after = memory.setAllocation ptr (some size)
  | .remove ptr, answer, after =>
      answer = memory.allocations ptr ∧ after = memory.setAllocation ptr none
  | .copyNonoverlapping ptr data, _, after =>
      after = memory.write ptr data (.strayCopy ptr data.length)
  | .setOutput _ ptr len, _, after => after = if len = 0 then memory else memory.setOwned ptr true
  | .callFree ptr, _, after => mayFree memory ptr ∧ after = memory.setOwned ptr false
  | .writeBytes ptr count, _, after =>
      after = memory.write ptr (List.replicate count 0) (.strayWipe ptr count)
  | .dealloc ptr size, _, after => after = memory.dealloc ptr size

/-- What other code of the process may do to one address: what was not the library's still
is not, and a buffer that a caller owns may be written. -/
def DriftsAt (before after : Memory) (ptr : Address) : Prop :=
  after.blocks ptr = before.blocks ptr ∨
    (∀ size, ¬ before.IsOurs ptr size) ∧ (∀ size, ¬ after.IsOurs ptr size) ∨
      before.owned ptr = true ∧ ∀ size, before.IsOurs ptr size → after.IsOurs ptr size

/-- What other code may do. -/
structure Drifts (before after : Memory) : Prop where
  blocks : ∀ ptr, DriftsAt before after ptr
  allocations : after.allocations = before.allocations
  owned : after.owned = before.owned
  misuse : after.misuse = before.misuse

/-- Nothing is allocated yet by the library, and nothing is owned. -/
structure Initial (memory : Memory) : Prop where
  blocks : ∀ ptr size, ¬ memory.IsOurs ptr size
  allocations : ∀ ptr, memory.allocations ptr = none
  owned : ∀ ptr, memory.owned ptr = false
  misuse : memory.misuse = []

end Memory

/-- The memory shared by all callers; `mayFree` says when `citadel_free` may be called. -/
@[reducible] def heap (arena : Arena) (mayFree : Memory → Address → Prop) :
    SharedWorld Op Op.Ret where
  State := Memory
  Answers := Memory.Answers arena mayFree
  Drifts := Memory.Drifts

/-- Callers free anything at any time. -/
def anyFree (_ : Memory) (_ : Address) : Prop := True

/-- Callers give back only buffers that they own, and pointers that are no block at all. -/
def ownerFrees (arena : Arena) (memory : Memory) (ptr : Address) : Prop :=
  memory.owned ptr = true ∨ ptr ∉ arena.addresses

end Citadel.Ffi
