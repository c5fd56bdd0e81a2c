import Mathlib.Data.Finset.Basic
import Goatos.Library.Transition
import Goatos.Memory.HeapOperations

namespace Goatos
namespace Memory

open Library

/-!
# The heap and its clients

A world records the heap, memory and the payloads that clients currently hold.
Clients may ask for any layout, give back what they hold, and write into the
bytes they asked for.  Memory outside the heap may change as well.

The invariant is that memory describes a coalesced row of blocks whose live
members are the held payloads.  Everything the heap promises is read off that
row: the representation and its counters, and the isolation of its clients.
-/

/-- What a client holds: a pointer and the number of bytes it asked for. -/
@[ext]
structure Payload where
  address : Nat
  size : Nat
  deriving DecidableEq, Repr

namespace Payload

/-- The bytes a client may use. -/
def bytes (payload : Payload) : Set Nat :=
  ByteMemory.extent payload.address payload.size

def header (payload : Payload) : Set Nat :=
  ByteMemory.extent (payload.address - headerSize) headerSize

end Payload

/-- A call with its answer, or a burst of writes by the clients. -/
inductive HeapEvent where
  | allocate (layout : Layout) (result : Nat)
  | deallocate (payload : Payload)
  | write
  deriving DecidableEq

structure HeapWorld where
  heap : Heap
  memory : ByteMemory
  held : Finset Payload

namespace HeapWorld

def init (memory : ByteMemory) (start size : Nat) : HeapWorld where
  heap := (Heap.init memory start size).1
  memory := (Heap.init memory start size).2
  held := ∅

/-- The world after a call of `allocate` that came to an answer. -/
def allocated (world : HeapWorld) (layout : Layout) (answer : Nat × Heap × ByteMemory) :
    HeapWorld where
  heap := answer.2.1
  memory := answer.2.2
  held := if answer.1 = null then world.held else insert ⟨answer.1, layout.size⟩ world.held

/-- The world after a call of `deallocate` that came to an end. -/
def deallocated (world : HeapWorld) (payload : Payload) (answer : Heap × ByteMemory) :
    HeapWorld where
  heap := answer.1
  memory := answer.2
  held := world.held.erase payload

end HeapWorld

/-- The steps of the heap and its clients.  A call that comes to an end does so
after some number of passes through its loop. -/
inductive HeapStep : HeapWorld -> HeapEvent -> HeapWorld -> Prop
  | allocate {world : HeapWorld} {layout : Layout} {fuel : Nat}
      {answer : Nat × Heap × ByteMemory} :
      world.heap.allocate world.memory layout fuel = some answer ->
      HeapStep world (.allocate layout answer.1) (world.allocated layout answer)
  | deallocate {world : HeapWorld} {payload : Payload} {fuel : Nat} {answer : Heap × ByteMemory} :
      payload ∈ world.held ->
      world.heap.deallocate world.memory payload.address fuel = some answer ->
      HeapStep world (.deallocate payload) (world.deallocated payload answer)
  | write {world : HeapWorld} {memory : ByteMemory} :
      (forall target, world.heap.heapStart ≤ target -> target < world.heap.heapEnd ->
        (forall payload, payload ∈ world.held -> target ∉ payload.bytes) ->
        memory target = world.memory target) ->
      HeapStep world .write { world with memory := memory }

namespace HeapWorld

/-- The world after `allocate`, given enough passes.  With too few nothing happens,
so this is of use only together with a proof that the call returns. -/
def afterAllocate (world : HeapWorld) (layout : Layout) (fuel : Nat) : HeapWorld :=
  match world.heap.allocate world.memory layout fuel with
  | some answer => world.allocated layout answer
  | none => world

def afterDeallocate (world : HeapWorld) (payload : Payload) (fuel : Nat) : HeapWorld :=
  match world.heap.deallocate world.memory payload.address fuel with
  | some answer => world.deallocated payload answer
  | none => world

theorem step_allocate {world : HeapWorld} {layout : Layout} {fuel result : Nat}
    (returns : (world.heap.allocate world.memory layout fuel).map Prod.fst = some result) :
    HeapStep world (.allocate layout result) (world.afterAllocate layout fuel) := by
  rcases Option.map_eq_some_iff.mp returns with ⟨answer, call, rfl⟩
  rw [afterAllocate, call]
  exact HeapStep.allocate call

theorem step_deallocate {world : HeapWorld} {payload : Payload} {fuel : Nat}
    (held : payload ∈ world.held)
    (returns : (world.heap.deallocate world.memory payload.address fuel).isSome = true) :
    HeapStep world (.deallocate payload) (world.afterDeallocate payload fuel) := by
  rcases Option.isSome_iff_exists.mp returns with ⟨answer, call⟩
  rw [afterDeallocate, call]
  exact HeapStep.deallocate held call

end HeapWorld

/-- The row of blocks that describes a world.  The live blocks are the payloads that
clients hold, each with room for what was asked, and free blocks do not touch. -/
structure HeapInvariant (world : HeapWorld) (blocks : List Block) : Prop where
  shape : HeapShape world.heap.heapStart world.heap.heapEnd world.heap.freeList world.memory blocks
  aligned : 8 ∣ world.heap.heapStart
  coalesced : Coalesced blocks
  requests : forall block, block ∈ blocks -> forall size, block.request = some size ->
    size + headerSize ≤ block.size
  used : world.heap.used = liveBytes blocks
  held : forall payload, payload ∈ world.held ↔ Exists fun block => block ∈ blocks ∧
    block.request = some payload.size ∧ block.address + headerSize = payload.address

/-! ## Allocation -/

/-- The ways in which `allocate` can come to an answer: it refuses, for one of
five reasons, or its search has stopped at a block and takes it. -/
theorem Heap.allocate_cases {heap : Heap} {memory : ByteMemory} {layout : Layout} {fuel : Nat}
    {answer : Nat × Heap × ByteMemory} (call : heap.allocate memory layout fuel = some answer) :
    (answer = (null, heap, memory) ∧
      (heap.isReady = false ∨ layout.size = 0 ∨ heapAlign < layout.align ∨
        alignedBlockSize layout.size = none ∨
        Exists fun needed => Exists fun place =>
          alignedBlockSize layout.size = some needed ∧
          seek (nextAt memory) null (fun block => needed ≤ sizeAt memory block) fuel
            (null, heap.freeList) = some place ∧ place.2 = null)) ∨
      (heap.isReady = true ∧ layout.size ≠ 0 ∧ layout.align ≤ heapAlign) ∧
      Exists fun needed => Exists fun place =>
        alignedBlockSize layout.size = some needed ∧
        seek (nextAt memory) null (fun block => needed ≤ sizeAt memory block) fuel
          (null, heap.freeList) = some place ∧
        place.2 ≠ null ∧ heap.take memory needed place.1 place.2 = answer := by
  unfold allocate at call
  split at call
  · rename_i early
    exact Or.inl ⟨(Option.some.inj call).symm, early.imp_right Or.inl⟩
  · rename_i accepted
    rw [not_or, Bool.not_eq_false] at accepted
    split at call
    · rename_i strict
      exact Or.inl ⟨(Option.some.inj call).symm, Or.inr (Or.inr (Or.inl strict))⟩
    · rename_i lenient
      split at call
      · rename_i overflow
        exact Or.inl ⟨(Option.some.inj call).symm, Or.inr (Or.inr (Or.inr (Or.inl overflow)))⟩
      · rename_i needed sized
        rcases Option.map_eq_some_iff.mp call with ⟨place, found, taken⟩
        split at taken
        · rename_i exhausted
          exact Or.inl ⟨taken.symm,
            Or.inr (Or.inr (Or.inr (Or.inr ⟨needed, place, sized, found, exhausted⟩)))⟩
        · rename_i real
          exact Or.inr ⟨⟨accepted.1, accepted.2, Nat.le_of_not_lt lenient⟩,
            needed, place, sized, found, real, taken⟩

/-- However many passes are allowed, an insertion that comes to an end has one
outcome. -/
theorem Heap.insertFree_unique {heap : Heap} {memory : ByteMemory} {block size fuel fuel' : Nat}
    {answer answer' : Heap × ByteMemory}
    (first : heap.insertFree memory block size fuel = some answer)
    (second : heap.insertFree memory block size fuel' = some answer') : answer = answer' := by
  rcases Option.map_eq_some_iff.mp first with ⟨place, found, rfl⟩
  rcases Option.map_eq_some_iff.mp second with ⟨place', found', rfl⟩
  rw [runFor_unique found found']

namespace HeapShape

variable {start stop freeList : Nat} {memory : ByteMemory} {blocks before after : List Block}
  {block : Block}

theorem fits_iff (shape : HeapShape start stop freeList memory blocks) {needed : Nat}
    (member : block ∈ blocks) :
    (decide (needed ≤ sizeAt memory block.address)) = true ↔ needed ≤ block.size := by
  rw [decide_eq_true_iff, shape.headers block member]

/-- The search finds the block that first fit chooses. -/
theorem seek_fit (shape : HeapShape start stop freeList memory (before ++ block :: after))
    {needed fuel : Nat}
    (small : forall other, other ∈ before -> other.isFree = true -> other.size < needed)
    (free : block.isFree = true) (fits : needed ≤ block.size)
    (enough : (freeAddresses before).length < fuel) :
    seek (nextAt memory) null (fun address => needed ≤ sizeAt memory address) fuel
      (null, freeList) = some ((freeAddresses before).getLastD null, block.address) := by
  have whole := shape.linked
  rw [freeAddresses_append, freeAddresses_cons_of_free free] at whole
  refine seek_eq whole ?_ ?_ enough
  · intro address member
    rcases mem_freeAddresses.mp member with ⟨other, inBefore, otherFree, rfl⟩
    rw [Bool.eq_false_iff, ne_eq, shape.fits_iff (List.mem_append_left _ inBefore)]
    exact Nat.not_le_of_lt (small other inBefore otherFree)
  · intro address isHead
    cases isHead
    exact (shape.fits_iff (by simp)).mpr fits

theorem seek_none (shape : HeapShape start stop freeList memory blocks) {needed fuel : Nat}
    (small : forall other, other ∈ blocks -> other.isFree = true -> other.size < needed)
    (enough : (freeAddresses blocks).length < fuel) :
    seek (nextAt memory) null (fun address => needed ≤ sizeAt memory address) fuel
      (null, freeList) = some ((freeAddresses blocks).getLastD null, null) := by
  have whole := shape.linked
  rw [← List.append_nil (freeAddresses blocks)] at whole
  refine seek_eq whole ?_ ?_ enough
  · intro address member
    rcases mem_freeAddresses.mp member with ⟨other, inBlocks, otherFree, rfl⟩
    rw [Bool.eq_false_iff, ne_eq, shape.fits_iff inBlocks]
    exact Nat.not_le_of_lt (small other inBlocks otherFree)
  · intro address impossible
    cases impossible

/-- The header of the free block before a given one lies outside every live
block. -/
theorem away_from_lastFree
    (shape : HeapShape start stop freeList memory (before ++ block :: after)) {other : Block}
    (member : other ∈ before ++ block :: after) (live : other.isFree = false) {target : Nat}
    (inside : target ∈ ByteMemory.extent other.address other.size) :
    (freeAddresses before).getLastD null = null ∨
      target < (freeAddresses before).getLastD null ∨
      (freeAddresses before).getLastD null + 8 ≤ target := by
  have bounds := ByteMemory.mem_extent.mp inside
  rcases lastFree_cases shape.tiles_around.1 shape.sized_before rfl with
    ⟨_, isNull⟩ | ⟨early, split, _⟩
  · exact Or.inl isNull
  · have isFree : (freeAddresses before).getLastD null ∈ freeAddresses before := by
      rw [split]
      simp
    rcases mem_freeAddresses.mp isFree with ⟨last, inBefore, lastFree, same⟩
    have size := (shape.sized_before last inBefore).2
    have away := shape.apart_of_live_of_free member live (List.mem_append_left _ inBefore) lastFree
    rw [← same]
    unfold headerSize at size
    omega

theorem address_ne_of_around
    (shape : HeapShape start stop freeList memory (before ++ block :: after)) {other : Block}
    (around : other ∈ before ∨ other ∈ after) : other.address ≠ block.address := by
  have size := (shape.sized block (by simp)).2
  rcases shape.tiles_around with ⟨tilesBefore, tilesAfter⟩
  rcases around with early | late
  · have bounds := tilesBefore.bounds early
    have otherSize := (shape.sized_before other early).2
    unfold headerSize at otherSize
    omega
  · have bounds := tilesAfter.bounds late
    unfold headerSize at size
    omega

theorem linkBetween_untouched
    (shape : HeapShape start stop freeList memory (before ++ block :: after)) (heap : Heap)
    {other : Block} (member : other ∈ before ++ block :: after) (live : other.isFree = false)
    (unequal : other ≠ block) :
    Set.EqOn (heap.linkBetween (setNext (setSize memory block.address block.size) block.address null)
        block.address ((freeAddresses before).getLastD null) ((freeAddresses after).headD null)).2
      memory (ByteMemory.extent other.address other.size) := by
  intro target inside
  have away := shape.away_from_lastFree member live inside
  have bounds := ByteMemory.mem_extent.mp inside
  have size := (shape.sized block (by simp)).2
  have apart := (shape.tiles.apart member
    (List.mem_append_right before List.mem_cons_self)).resolve_left unequal
  unfold headerSize at size
  rw [Heap.linkBetween_outside (by omega) away, setNext_outside (by omega),
    setSize_outside (by omega)]

/-- Free blocks before a given one have smaller addresses, those after it larger
ones. -/
theorem seek_place (shape : HeapShape start stop freeList memory (before ++ block :: after))
    (live : block.isFree = false) {memory' : ByteMemory}
    (agree : forall target, target < block.address ∨ block.address + block.size ≤ target ->
      memory' target = memory target) {fuel : Nat} (enough : (freeAddresses before).length < fuel) :
    seek (nextAt memory') null (fun current => block.address ≤ current) fuel (null, freeList) =
      some ((freeAddresses before).getLastD null, (freeAddresses after).headD null) := by
  rcases shape.tiles_around with ⟨tilesBefore, tilesAfter⟩
  have whole : Linked (nextAt memory') null freeList (freeAddresses before ++ freeAddresses after) := by
    have linked := shape.linked
    rw [freeAddresses_append, freeAddresses_cons_of_live live] at linked
    refine linked.congr ?_
    intro address member
    apply nextAt_congr
    intro target lower upper
    apply agree
    rcases List.mem_append.mp member with early | late
    · rcases mem_freeAddresses.mp early with ⟨other, inBefore, _, rfl⟩
      have size := (shape.sized_before other inBefore).2
      have bounds := tilesBefore.bounds inBefore
      unfold headerSize at size
      omega
    · rcases mem_freeAddresses.mp late with ⟨other, inAfter, _, rfl⟩
      have bounds := tilesAfter.bounds inAfter
      omega
  refine seek_eq whole ?_ ?_ enough
  · intro address member
    rcases mem_freeAddresses.mp member with ⟨other, inBefore, _, rfl⟩
    have size := (shape.sized_before other inBefore).2
    have bounds := tilesBefore.bounds inBefore
    unfold headerSize at size
    rw [decide_eq_false_iff_not]
    omega
  · intro address isHead
    have member : address ∈ freeAddresses after := List.mem_of_mem_head? isHead
    rcases mem_freeAddresses.mp member with ⟨other, inAfter, _, rfl⟩
    have bounds := tilesAfter.bounds inAfter
    rw [decide_eq_true_iff]
    omega

end HeapShape

theorem carve_coalesced {before after : List Block} {block : Block} (free : block.isFree = true)
    (coalesced : Coalesced (before ++ block :: after)) (needed request : Nat) :
    Coalesced (before ++ (block.carve needed request ++ after)) := by
  rcases List.isChain_append.mp coalesced with ⟨early, late, _⟩
  rcases List.isChain_cons.mp late with ⟨following, rest⟩
  unfold Block.carve
  split
  · refine List.isChain_append.mpr ⟨early, ?_, ?_⟩
    · refine List.isChain_cons.mpr ⟨?_, List.isChain_cons.mpr ⟨?_, rest⟩⟩
      · intro other isHead both
        cases both.1
      · intro other isHead both
        exact following other isHead ⟨free, both.2⟩
    · intro other _ first isHead both
      cases isHead
      cases both.2
  · refine List.isChain_append.mpr ⟨early, List.isChain_cons.mpr ⟨?_, rest⟩, ?_⟩
    · intro other isHead both
      cases both.1
    · intro other _ first isHead both
      cases isHead
      cases both.2

theorem carve_eq {block : Block} {needed : Nat} (request : Nat) (fits : needed ≤ block.size) :
    Exists fun extent => Exists fun tail =>
      block.carve needed request = ⟨block.address, extent, some request⟩ :: tail ∧
      needed ≤ extent ∧ extent ≤ block.size ∧
      forall other, other ∈ tail -> other.request = none := by
  unfold Block.carve
  split
  · refine ⟨needed, _, rfl, Nat.le_refl _, fits, ?_⟩
    intro other member
    rw [List.mem_singleton.mp member]
  · exact ⟨block.size, [], rfl, fits, Nat.le_refl _, fun _ impossible => by cases impossible⟩

namespace HeapInvariant

variable {world : HeapWorld} {blocks : List Block}

/-- A successful allocation: a free block was carved, the invariant holds of the
new row, and no byte of a live block was written. -/
structure Allocation (world : HeapWorld) (blocks : List Block) (layout : Layout)
    (answer : Nat × Heap × ByteMemory) : Prop where
  carved : Exists fun before => Exists fun block => Exists fun after => Exists fun needed =>
    blocks = before ++ block :: after ∧ block.isFree = true ∧ needed ≤ block.size ∧
    layout.size + headerSize ≤ needed ∧ answer.1 = block.address + headerSize ∧
    HeapInvariant (world.allocated layout answer)
      (before ++ (block.carve needed layout.size ++ after))
  bounds : answer.2.1.heapStart = world.heap.heapStart ∧ answer.2.1.heapEnd = world.heap.heapEnd
  untouched : forall block, block ∈ blocks -> block.isFree = false ->
    Set.EqOn answer.2.2 world.memory (ByteMemory.extent block.address block.size)

theorem carve {before after : List Block} {block : Block}
    (invariant : HeapInvariant world (before ++ block :: after)) (free : block.isFree = true)
    {layout : Layout} {needed : Nat} (sized : alignedBlockSize layout.size = some needed)
    (fits : needed ≤ block.size) {answer : Nat × Heap × ByteMemory}
    (taken : world.heap.take world.memory needed ((freeAddresses before).getLastD null)
      block.address = answer) :
    answer.1 = block.address + headerSize ∧
      HeapInvariant (world.allocated layout answer)
        (before ++ (block.carve needed layout.size ++ after)) ∧
      (answer.2.1.heapStart = world.heap.heapStart ∧ answer.2.1.heapEnd = world.heap.heapEnd) ∧
      forall other, other ∈ before ++ block :: after -> other.isFree = false ->
        Set.EqOn answer.2.2 world.memory (ByteMemory.extent other.address other.size) := by
  subst taken
  have shape := invariant.shape
  have needs := alignedBlockSize_eq_some sized
  have large : headerSize ≤ needed := Nat.le_trans (Nat.le_add_left _ _) needs.2.1
  rcases shape.take free layout.size needs.1 large fits rfl with
    ⟨freeList, memory, equal, newShape, outside⟩
  rcases carve_eq layout.size fits with ⟨extent, tail, carved, enough, within, tailFree⟩
  rw [equal]
  have real : block.address + headerSize ≠ null := Nat.succ_ne_zero _
  refine ⟨rfl, ?_, ⟨rfl, rfl⟩, ?_⟩
  · refine ⟨newShape, invariant.aligned, carve_coalesced free invariant.coalesced _ _, ?_, ?_, ?_⟩
    · intro other member size asked
      rcases List.mem_append.mp member with early | late
      · exact invariant.requests other (List.mem_append_left _ early) size asked
      · rcases List.mem_append.mp late with inCarve | later
        · rw [carved] at inCarve
          rcases List.mem_cons.mp inCarve with rfl | inTail
          · cases asked
            exact Nat.le_trans needs.2.1 enough
          · rw [tailFree other inTail] at asked
            cases asked
        · exact invariant.requests other (by simp [later]) size asked
    · change world.heap.used + _ = _
      rw [invariant.used, liveBytes_append, liveBytes_append, liveBytes_append,
        liveBytes_cons_of_free free]
      omega
    · intro payload
      simp only [HeapWorld.allocated, if_neg real, Finset.mem_insert, invariant.held]
      constructor
      · rintro (rfl | ⟨other, member, asked, same⟩)
        · exact ⟨⟨block.address, extent, some layout.size⟩, by simp [carved], rfl, rfl⟩
        · have different := Block.ne_of_live_of_free (Block.live_of_request asked) free
          refine ⟨other, ?_, asked, same⟩
          simp only [List.mem_append, List.mem_cons, different, false_or] at member
          simp only [List.mem_append]
          exact member.imp_right Or.inr
      · rintro ⟨other, member, asked, same⟩
        simp only [List.mem_append] at member
        rcases member with early | inCarve | later
        · exact Or.inr ⟨other, List.mem_append_left _ early, asked, same⟩
        · rw [carved] at inCarve
          rcases List.mem_cons.mp inCarve with rfl | inTail
          · exact Or.inl (Payload.ext same.symm (Option.some.inj asked).symm)
          · rw [tailFree other inTail] at asked
            cases asked
        · exact Or.inr ⟨other, by simp [later], asked, same⟩
  · intro other member live target inside
    have bounds := ByteMemory.mem_extent.mp inside
    have apart := shape.apart_of_live_of_free member live
      (List.mem_append_right before List.mem_cons_self) free
    have away := shape.away_from_lastFree member live inside
    exact outside target (by omega) (by omega)

/-- Every answer of `allocate`: a refusal because no free block is large enough,
or for a reason that has nothing to do with the blocks, or the first free block
that is large enough. -/
theorem allocate_firstFit (invariant : HeapInvariant world blocks) {layout : Layout} {fuel : Nat}
    {answer : Nat × Heap × ByteMemory}
    (call : world.heap.allocate world.memory layout fuel = some answer) :
    (answer = (null, world.heap, world.memory) ∧
      (world.heap.isReady = false ∨ layout.size = 0 ∨ heapAlign < layout.align ∨
        alignedBlockSize layout.size = none ∨
        Exists fun needed => alignedBlockSize layout.size = some needed ∧
          forall block, block ∈ blocks -> block.isFree = true -> block.size < needed)) ∨
      (world.heap.isReady = true ∧ layout.size ≠ 0 ∧ layout.align ≤ heapAlign) ∧
      Exists fun needed => Exists fun before => Exists fun block => Exists fun after =>
        alignedBlockSize layout.size = some needed ∧ blocks = before ++ block :: after ∧
        (forall other, other ∈ before -> other.isFree = true -> other.size < needed) ∧
        block.isFree = true ∧ needed ≤ block.size ∧
        world.heap.take world.memory needed ((freeAddresses before).getLastD null)
          block.address = answer := by
  rcases Heap.allocate_cases call with
    ⟨refused, notReady | empty | strict | overflow | ⟨needed, place, sized, found, exhausted⟩⟩ |
    ⟨accepted, needed, place, sized, found, real, taken⟩
  · exact Or.inl ⟨refused, Or.inl notReady⟩
  · exact Or.inl ⟨refused, Or.inr (Or.inl empty)⟩
  · exact Or.inl ⟨refused, Or.inr (Or.inr (Or.inl strict))⟩
  · exact Or.inl ⟨refused, Or.inr (Or.inr (Or.inr (Or.inl overflow)))⟩
  · refine Or.inl ⟨refused, Or.inr (Or.inr (Or.inr (Or.inr ⟨needed, sized, ?_⟩)))⟩
    cases fit : firstFit needed layout.size blocks with
    | none => exact firstFit_eq_none fit
    | some result =>
        rcases firstFit_eq_some fit with ⟨before, block, after, rfl, small, free, fits, _⟩
        have arrived := invariant.shape.seek_fit small free fits (Nat.lt_succ_self _)
        rw [runFor_unique found arrived] at exhausted
        exact absurd exhausted (invariant.shape.linked.ne_last
          (mem_freeAddresses.mpr ⟨block, by simp, free, rfl⟩))
  · refine Or.inr ⟨accepted, needed, ?_⟩
    cases fit : firstFit needed layout.size blocks with
    | none =>
        have ended := invariant.shape.seek_none (firstFit_eq_none fit) (Nat.lt_succ_self _)
        rw [runFor_unique found ended] at real
        exact absurd rfl real
    | some result =>
        rcases firstFit_eq_some fit with ⟨before, block, after, rfl, small, free, fits, _⟩
        have arrived := invariant.shape.seek_fit small free fits (Nat.lt_succ_self _)
        rw [runFor_unique found arrived] at taken
        exact ⟨before, block, after, sized, rfl, small, free, fits, taken⟩

/-- Every answer of `allocate`: a refusal that changes nothing, or a successful
allocation. -/
theorem allocate (invariant : HeapInvariant world blocks) {layout : Layout} {fuel : Nat}
    {answer : Nat × Heap × ByteMemory}
    (call : world.heap.allocate world.memory layout fuel = some answer) :
    answer = (null, world.heap, world.memory) ∨ Allocation world blocks layout answer := by
  rcases invariant.allocate_firstFit call with
    ⟨refused, _⟩ | ⟨_, needed, before, block, after, sized, rfl, _, free, fits, taken⟩
  · exact Or.inl refused
  · rcases invariant.carve free sized fits taken with ⟨same, kept, bounds, untouched⟩
    exact Or.inr ⟨⟨before, block, after, needed, rfl, free, fits,
      (alignedBlockSize_eq_some sized).2.1, same, kept⟩, bounds, untouched⟩

/-- `allocate` always comes to an answer. -/
theorem allocate_returns (invariant : HeapInvariant world blocks) (layout : Layout) :
    Exists fun fuel => Exists fun answer =>
      world.heap.allocate world.memory layout fuel = some answer := by
  refine ⟨(freeAddresses blocks).length + 1, ?_⟩
  unfold Heap.allocate
  split
  · exact ⟨_, rfl⟩
  · split
    · exact ⟨_, rfl⟩
    · split
      · exact ⟨_, rfl⟩
      · rename_i needed sized
        cases fit : firstFit needed layout.size blocks with
        | none =>
            rw [invariant.shape.seek_none (firstFit_eq_none fit) (Nat.lt_succ_self _)]
            exact ⟨_, rfl⟩
        | some result =>
            rcases firstFit_eq_some fit with ⟨before, block, after, rfl, small, free, fits, _⟩
            have enough : (freeAddresses before).length <
                (freeAddresses (before ++ block :: after)).length + 1 := by
              rw [freeAddresses_append, List.length_append]
              omega
            rw [invariant.shape.seek_fit small free fits enough]
            exact ⟨_, rfl⟩

/-! ## Deallocation -/

theorem exists_block (invariant : HeapInvariant world blocks) {payload : Payload}
    (held : payload ∈ world.held) :
    Exists fun before => Exists fun block => Exists fun after =>
      blocks = before ++ block :: after ∧ block.request = some payload.size ∧
      block.isFree = false ∧ block.address + headerSize = payload.address := by
  rcases (invariant.held payload).mp held with ⟨block, member, asked, same⟩
  rcases List.append_of_mem member with ⟨before, after, split⟩
  exact ⟨before, block, after, split, asked, Block.live_of_request asked, same⟩

/-- None of the tests of `deallocate` refuses a live block: its header is inside the
heap and tells a size that holds the header and stays inside. -/
theorem deallocate_eq {before after : List Block} {block : Block}
    (invariant : HeapInvariant world (before ++ block :: after)) (fuel : Nat) :
    world.heap.deallocate world.memory (block.address + headerSize) fuel =
      Heap.insertFree { world.heap with used := world.heap.used - block.size } world.memory
        block.address block.size fuel := by
  have member : block ∈ before ++ block :: after := by simp
  have bounds := invariant.shape.tiles.bounds member
  have large := (invariant.shape.sized block member).2
  have header := invariant.shape.headers block member
  have positive : headerSize = 8 := rfl
  have ready : world.heap.isReady = true := by
    rw [Heap.isReady, decide_eq_true_iff]
    omega
  have real : ¬ (block.address + headerSize = null ∨ world.heap.isReady = false) := by
    rw [ready]
    rintro (isNull | impossible)
    · exact Nat.succ_ne_zero _ isNull
    · cases impossible
  rw [Heap.deallocate, if_neg real]
  simp only [Nat.add_sub_cancel, header]
  rw [if_neg (by omega), if_neg (by omega)]

/-- A deallocation: the block was marked free and joined with its neighbours,
and no byte of another live block was written. -/
structure Deallocation (world : HeapWorld) (blocks : List Block) (payload : Payload)
    (answer : Heap × ByteMemory) : Prop where
  joined : Exists fun before => Exists fun block => Exists fun after =>
    blocks = before ++ block :: after ∧ block.address + headerSize = payload.address ∧
    HeapInvariant (world.deallocated payload answer) (join before (join [block.freed] after))
  bounds : answer.1.heapStart = world.heap.heapStart ∧ answer.1.heapEnd = world.heap.heapEnd
  untouched : forall block, block ∈ blocks -> block.isFree = false ->
    block.address + headerSize ≠ payload.address ->
    Set.EqOn answer.2 world.memory (ByteMemory.extent block.address block.size)

/-- Linking a live block in keeps the invariant. -/
theorem linkBetween {before after : List Block} {block : Block}
    (invariant : HeapInvariant world (before ++ block :: after)) {payload : Payload}
    (asked : block.request = some payload.size) (same : block.address + headerSize = payload.address) :
    Deallocation world (before ++ block :: after) payload
      (Heap.linkBetween { world.heap with used := world.heap.used - block.size }
        (setNext (setSize world.memory block.address block.size) block.address null)
        block.address ((freeAddresses before).getLastD null)
        ((freeAddresses after).headD null)) := by
  have shape := invariant.shape
  have live := Block.live_of_request asked
  have shape' : HeapShape
      { world.heap with used := world.heap.used - block.size }.heapStart
      { world.heap with used := world.heap.used - block.size }.heapEnd
      { world.heap with used := world.heap.used - block.size }.freeList
      world.memory (before ++ block :: after) := shape
  rcases shape'.linkBetween rfl rfl with ⟨freeList, memory, equal, newShape⟩
  have coalesced := List.isChain_append.mp invariant.coalesced
  refine ⟨⟨before, block, after, rfl, same, ?_⟩, by rw [equal]; exact ⟨rfl, rfl⟩, ?_⟩
  · rw [equal]
    refine ⟨newShape, invariant.aligned, ?_, ?_, ?_, ?_⟩
    · exact join_coalesced coalesced.1
        (join_coalesced (List.isChain_singleton _) (List.isChain_cons.mp coalesced.2.1).2)
    · intro other member size otherAsked
      have place := (mem_join_freed_of_live (Block.live_of_request otherAsked)).mp member
      exact invariant.requests other (by simp only [List.mem_append, List.mem_cons]; tauto) size
        otherAsked
    · change world.heap.used - block.size = _
      have nothing : liveBytes [block.freed] = 0 := liveBytes_cons_of_free Block.isFree_freed
      simp only [invariant.used, liveBytes_append, liveBytes_join, liveBytes_cons_of_live live,
        nothing]
      omega
    · intro other
      simp only [HeapWorld.deallocated, Finset.mem_erase, invariant.held]
      constructor
      · rintro ⟨unequal, candidate, member, otherAsked, otherSame⟩
        refine ⟨candidate, ?_, otherAsked, otherSame⟩
        rw [mem_join_freed_of_live (Block.live_of_request otherAsked)]
        simp only [List.mem_append, List.mem_cons] at member
        rcases member with early | isBlock | late
        · exact Or.inl early
        · subst isBlock
          exact absurd (Payload.ext (otherSame.symm.trans same)
            (Option.some.inj (otherAsked.symm.trans asked))) unequal
        · exact Or.inr late
      · rintro ⟨candidate, member, otherAsked, otherSame⟩
        have place := (mem_join_freed_of_live (Block.live_of_request otherAsked)).mp member
        refine ⟨?_, candidate, ?_, otherAsked, otherSame⟩
        · rintro rfl
          exact shape.address_ne_of_around place
            (Nat.add_right_cancel (otherSame.trans same.symm))
        · simp only [List.mem_append, List.mem_cons]
          tauto
  · intro other member otherLive elsewhere
    refine shape.linkBetween_untouched _ member otherLive ?_
    rintro rfl
    exact elsewhere same

/-- The search of `insertFree` finds the neighbours of the block on the free
list. -/
theorem insertFree_eq {before after : List Block} {block : Block}
    (invariant : HeapInvariant world (before ++ block :: after)) (live : block.isFree = false)
    {fuel : Nat} (enough : (freeAddresses before).length < fuel) :
    Heap.insertFree { world.heap with used := world.heap.used - block.size } world.memory
      block.address block.size fuel =
      some (Heap.linkBetween { world.heap with used := world.heap.used - block.size }
        (setNext (setSize world.memory block.address block.size) block.address null)
        block.address ((freeAddresses before).getLastD null)
        ((freeAddresses after).headD null)) := by
  have size := (invariant.shape.sized block (by simp)).2
  unfold headerSize at size
  have agree : forall target, target < block.address ∨ block.address + block.size ≤ target ->
      setNext (setSize world.memory block.address block.size) block.address null target =
        world.memory target := by
    intro target away
    rw [setNext_outside (by omega), setSize_outside (by omega)]
  exact congrArg (Option.map fun place => Heap.linkBetween _ _ block.address place.1 place.2)
    (invariant.shape.seek_place live agree enough)

theorem deallocate (invariant : HeapInvariant world blocks) {payload : Payload}
    (held : payload ∈ world.held) {fuel : Nat} {answer : Heap × ByteMemory}
    (call : world.heap.deallocate world.memory payload.address fuel = some answer) :
    Deallocation world blocks payload answer := by
  rcases invariant.exists_block held with ⟨before, block, after, rfl, asked, live, same⟩
  rw [← same, invariant.deallocate_eq] at call
  have arrived := invariant.insertFree_eq live (Nat.lt_succ_self _)
  rw [Heap.insertFree_unique call arrived]
  exact invariant.linkBetween asked same

theorem deallocate_returns (invariant : HeapInvariant world blocks) {payload : Payload}
    (held : payload ∈ world.held) :
    Exists fun fuel => Exists fun answer =>
      world.heap.deallocate world.memory payload.address fuel = some answer := by
  rcases invariant.exists_block held with ⟨before, block, after, rfl, asked, live, same⟩
  refine ⟨(freeAddresses before).length + 1, ?_⟩
  rw [← same, invariant.deallocate_eq, invariant.insertFree_eq live (Nat.lt_succ_self _)]
  exact ⟨_, rfl⟩

end HeapInvariant

end Memory
end Goatos
