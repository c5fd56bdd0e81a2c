import Goatos.Library.ByteMemory
import Goatos.Library.IntrusiveList
import Goatos.Library.Word

namespace Goatos
namespace Memory

open Library

/-!
# The kernel heap

A first-fit allocator over one region, with the free list threaded through the
free blocks in address order.  Every block, free or live, begins with a header
of two words: its size, header included, and the address of the next free block.
The second word means nothing while the block is live.

The heap's own fields are kept apart from memory, and an operation maps both to
new ones.  The two loops follow links through memory and end only because the
list does, so they take a number of passes and answer `none` when it is used up.

Sums of addresses and sizes inside the heap are written without wraparound: all
of them are bounded by its end, which lies below 2^32.  The end itself and the
counter of allocations can outgrow their words.  They are modelled as the
release build has them, wrapping; a build with overflow checks stops the kernel
there instead.
-/

def heapAlign : Nat := 8

def headerSize : Nat := 8

/-- The null pointer. -/
def null : Nat := 0

/-- The `size` field of the header at an address.  Headers are kept in the memory
that they describe, in front of every block. -/
def sizeAt (memory : ByteMemory) (block : Nat) : Nat :=
  memory.load block 4

def nextAt (memory : ByteMemory) (block : Nat) : Nat :=
  memory.load (block + 4) 4

def setSize (memory : ByteMemory) (block size : Nat) : ByteMemory :=
  memory.store block 4 size

def setNext (memory : ByteMemory) (block next : Nat) : ByteMemory :=
  memory.store (block + 4) 4 next

/-- Round up to a multiple of a power of two, unless that overflows. -/
def alignUp (value align : Nat) : Option Nat :=
  (checkedAdd 32 value (align - 1)).map (fun sum => andNot 32 sum (align - 1))

/-- The bytes that a live block needs for a payload. -/
def alignedBlockSize (payload : Nat) : Option Nat :=
  (alignUp payload heapAlign).bind fun withoutHeader =>
    (checkedAdd 32 withoutHeader headerSize).bind fun total => alignUp total heapAlign

/-- What a caller asks for. -/
structure Layout where
  size : Nat
  align : Nat
  deriving DecidableEq, Repr

/-- The bounds of the heap, the head of its free list and its counters.  All else is
in memory. -/
structure Heap where
  heapStart : Nat
  heapEnd : Nat
  freeList : Nat
  used : Nat
  allocations : Nat
  deriving DecidableEq, Repr

namespace Heap

def empty : Heap where
  heapStart := 1
  heapEnd := 1
  freeList := null
  used := 0
  allocations := 0

def isReady (heap : Heap) : Bool :=
  heap.heapStart < heap.heapEnd

/-- Turn a region into a heap with a single free block. -/
def init (memory : ByteMemory) (start size : Nat) : Heap × ByteMemory :=
  ({ heapStart := start
     heapEnd := (start + size) % 2 ^ 32
     freeList := start
     used := 0
     allocations := 0 },
    setNext (setSize memory start size) start null)

/-- Make the node before a block, or the head of the list, point elsewhere. -/
def unlink (heap : Heap) (memory : ByteMemory) (prev newNext : Nat) : Heap × ByteMemory :=
  if prev = null then ({ heap with freeList := newNext }, memory)
  else (heap, setNext memory prev newNext)

/-- Write the header of a block that is about to be handed out, and count it. -/
def handOut (heap : Heap) (memory : ByteMemory) (current size : Nat) : Nat × Heap × ByteMemory :=
  let memory := setNext (setSize memory current size) current null
  (current + headerSize,
    { heap with
      used := heap.used + sizeAt memory current
      allocations := (heap.allocations + 1) % 2 ^ 32 },
    memory)

/-- Take a block that is large enough off the free list, leaving its tail there
if the tail can be a block of its own. -/
def take (heap : Heap) (memory : ByteMemory) (needed prev current : Nat) :
    Nat × Heap × ByteMemory :=
  let next := nextAt memory current
  let remaining := sizeAt memory current - needed
  if headerSize ≤ remaining then
    let split := current + needed
    let memory := setNext (setSize memory split remaining) split next
    let unlinked := heap.unlink memory prev split
    unlinked.1.handOut unlinked.2 current needed
  else
    let unlinked := heap.unlink memory prev next
    unlinked.1.handOut unlinked.2 current (needed + remaining)

/-- First fit: hand out the first free block that can hold the request.  The search
goes over the free list, with a bound on its passes. -/
def allocate (heap : Heap) (memory : ByteMemory) (layout : Layout) (fuel : Nat) :
    Option (Nat × Heap × ByteMemory) :=
  if heap.isReady = false ∨ layout.size = 0 then some (null, heap, memory)
  else if heapAlign < layout.align then some (null, heap, memory)
  else
    match alignedBlockSize layout.size with
    | none => some (null, heap, memory)
    | some needed =>
        (seek (nextAt memory) null (fun block => needed ≤ sizeAt memory block) fuel
          (null, heap.freeList)).map fun place =>
            if place.2 = null then (null, heap, memory)
            else heap.take memory needed place.1 place.2

/-- Merge a free block with the free block right after it. -/
def absorb (memory : ByteMemory) (left right : Nat) : ByteMemory :=
  setNext (setSize memory left (sizeAt memory left + sizeAt memory right)) left
    (nextAt memory right)

/-- Link a block in between two neighbours on the free list, and merge it with
those that it touches. -/
def linkBetween (heap : Heap) (memory : ByteMemory) (block prev current : Nat) :
    Heap × ByteMemory :=
  let linked := heap.unlink (setNext memory block current) prev block
  let memory := linked.2
  let memory :=
    if current ≠ null ∧ block + sizeAt memory block = current then absorb memory block current
    else memory
  let memory :=
    if prev ≠ null ∧ prev + sizeAt memory prev = block then absorb memory prev block
    else memory
  (linked.1, memory)

/-- Insert a block into the free list, sorted by address.  The search finds the
neighbours that the block may have to be merged with. -/
def insertFree (heap : Heap) (memory : ByteMemory) (block size fuel : Nat) :
    Option (Heap × ByteMemory) :=
  let memory := setNext (setSize memory block size) block null
  (seek (nextAt memory) null (fun current => block ≤ current) fuel (null, heap.freeList)).map
    fun place => heap.linkBetween memory block place.1 place.2

/-- Give a block back.  A pointer that cannot be one of the heap's is ignored; one
that could be, but is not, is taken for a block. -/
def deallocate (heap : Heap) (memory : ByteMemory) (ptr fuel : Nat) : Option (Heap × ByteMemory) :=
  if ptr = null ∨ heap.isReady = false then some (heap, memory)
  else
    let blockAddr := ptr - headerSize
    if blockAddr < heap.heapStart ∨ heap.heapEnd ≤ blockAddr then some (heap, memory)
    else
      let size := sizeAt memory blockAddr
      if size < headerSize ∨ heap.heapEnd < blockAddr + size then some (heap, memory)
      else insertFree { heap with used := heap.used - size } memory blockAddr size fuel

end Heap

/-! ## Block sizes -/

/-- The bytes of a live block for a payload, in whole numbers: the payload rounded
up to eight bytes, and a header. -/
def blockSize (payload : Nat) : Nat :=
  (payload + 7) / 8 * 8 + headerSize

theorem alignUp_eq (value : Nat) :
    alignUp value heapAlign = if value + 7 < 2 ^ 32 then some ((value + 7) / 8 * 8) else none := by
  unfold alignUp checkedAdd heapAlign
  split
  · rename_i fits
    have cleared : andNot 32 (value + (8 - 1)) (8 - 1) = (value + 7) / 8 * 8 := andNot_low 3 fits
    rw [Option.map_some, cleared]
  · rfl

/-- None of the three checked additions fails unless the block size itself does
not fit a word. -/
theorem alignedBlockSize_eq (payload : Nat) :
    alignedBlockSize payload =
      if blockSize payload < 2 ^ 32 then some (blockSize payload) else none := by
  have header : headerSize = 8 := rfl
  have size : blockSize payload = (payload + 7) / 8 * 8 + headerSize := rfl
  have roundedTotal : (blockSize payload + 7) / 8 * 8 = blockSize payload := by omega
  rw [alignedBlockSize, alignUp_eq]
  by_cases small : payload + 7 < 2 ^ 32
  · rw [if_pos small, Option.bind_some, checkedAdd, ← size]
    by_cases fits : blockSize payload < 2 ^ 32
    · rw [if_pos fits, Option.bind_some, alignUp_eq, roundedTotal, if_pos (by omega)]
    · rw [if_neg fits, Option.bind_none]
  · rw [if_neg small, Option.bind_none, if_neg (by omega)]

theorem alignedBlockSize_eq_some_iff {payload needed : Nat} :
    alignedBlockSize payload = some needed ↔
      blockSize payload = needed ∧ blockSize payload < 2 ^ 32 := by
  rw [alignedBlockSize_eq, Option.ite_none_right_eq_some, Option.some.injEq, and_comm]

theorem alignedBlockSize_eq_none_iff {payload : Nat} :
    alignedBlockSize payload = none ↔ 2 ^ 32 ≤ blockSize payload := by
  rw [alignedBlockSize_eq]
  split
  · rename_i fits
    exact iff_of_false (Option.some_ne_none _) (Nat.not_le_of_lt fits)
  · rename_i overflow
    exact iff_of_true rfl (Nat.le_of_not_lt overflow)

/-- A live block is a multiple of eight bytes and holds its header and the
payload. -/
theorem alignedBlockSize_eq_some {payload needed : Nat}
    (sized : alignedBlockSize payload = some needed) :
    8 ∣ needed ∧ payload + headerSize ≤ needed ∧ needed < 2 ^ 32 := by
  rcases alignedBlockSize_eq_some_iff.mp sized with ⟨rfl, fits⟩
  unfold blockSize headerSize at fits ⊢
  omega

/-! ## Header fields under stores -/

section Headers

variable {memory : ByteMemory} {block other value : Nat}

theorem sizeAt_setSize (fits : value < 2 ^ 32) : sizeAt (setSize memory block value) block = value :=
  ByteMemory.load_store_of_lt memory fits

theorem nextAt_setNext (fits : value < 2 ^ 32) : nextAt (setNext memory block value) block = value :=
  ByteMemory.load_store_of_lt memory fits

theorem nextAt_lt (memory : ByteMemory) (block : Nat) : nextAt memory block < 2 ^ 32 :=
  ByteMemory.load_lt memory (block + 4) 4

theorem sizeAt_congr {memory' : ByteMemory}
    (agree : forall target, block ≤ target -> target < block + 4 -> memory' target = memory target) :
    sizeAt memory' block = sizeAt memory block :=
  ByteMemory.load_congr (fun target member => agree target member.1 member.2)

theorem nextAt_congr {memory' : ByteMemory}
    (agree : forall target, block + 4 ≤ target -> target < block + 8 ->
      memory' target = memory target) :
    nextAt memory' block = nextAt memory block :=
  ByteMemory.load_congr (fun target member => agree target member.1 member.2)

theorem setSize_outside {target : Nat} (outside : target < block ∨ block + 4 ≤ target) :
    setSize memory block value target = memory target :=
  ByteMemory.store_outside memory outside

theorem setNext_outside {target : Nat} (outside : target < block + 4 ∨ block + 8 ≤ target) :
    setNext memory block value target = memory target :=
  ByteMemory.store_outside memory outside

@[simp] theorem sizeAt_setNext : sizeAt (setNext memory block value) block = sizeAt memory block :=
  ByteMemory.load_store_of_disjoint memory (Or.inl (Nat.le_refl _))

theorem sizeAt_setNext_of_apart (apart : block + 8 ≤ other ∨ other + 8 ≤ block) :
    sizeAt (setNext memory block value) other = sizeAt memory other :=
  ByteMemory.load_store_of_disjoint memory (by omega)

theorem nextAt_setNext_of_apart (apart : block + 8 ≤ other ∨ other + 8 ≤ block) :
    nextAt (setNext memory block value) other = nextAt memory other :=
  ByteMemory.load_store_of_disjoint memory (by omega)

theorem sizeAt_setSize_of_apart (apart : block + 8 ≤ other ∨ other + 8 ≤ block) :
    sizeAt (setSize memory block value) other = sizeAt memory other :=
  ByteMemory.load_store_of_disjoint memory (by omega)

theorem nextAt_setSize_of_apart (apart : block + 8 ≤ other ∨ other + 8 ≤ block) :
    nextAt (setSize memory block value) other = nextAt memory other :=
  ByteMemory.load_store_of_disjoint memory (by omega)

end Headers

end Memory
end Goatos
