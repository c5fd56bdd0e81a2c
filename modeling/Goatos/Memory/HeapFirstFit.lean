import Goatos.Library.MaximalRuns
import Goatos.Memory.HeapGuarantees

namespace Goatos
namespace Memory

open Library

/-!
# First fit over the free bytes

The free list shows the allocator nodes, while a caller cares about bytes: which
of the heap's bytes belong to nobody, and how long a stretch of them is.  Because
the row of blocks is coalesced, the maximal runs of free bytes are exactly the
nodes of the list.  So the search decides about bytes as well, and it refuses a
request only when no stretch of free bytes could have held it.
-/

namespace HeapWorld

/-- The bytes of the live blocks.  The header in front of a held payload tells
how far its block reaches. -/
def takenBytes (world : HeapWorld) : Set Nat :=
  fun target => Exists fun payload => payload ∈ world.held ∧
    target ∈ ByteMemory.extent (payload.address - headerSize)
      (sizeAt world.memory (payload.address - headerSize))

/-- The bytes of the heap that belong to no live block. -/
def freeBytes (world : HeapWorld) : Set Nat :=
  Set.Ico world.heap.heapStart world.heap.heapEnd \ world.takenBytes

/-- The nodes of the free list in order, each with the size in its header. -/
def FreeList (world : HeapWorld) (nodes : List (Nat × Nat)) : Prop :=
  Linked (nextAt world.memory) null world.heap.freeList (nodes.map Prod.fst) ∧
    forall node, node ∈ nodes -> sizeAt world.memory node.1 = node.2

end HeapWorld

/-- The states of the heap: before it is initialised, and after any run over any
region. -/
inductive HeapReachable : HeapWorld -> Prop
  | unready (memory : ByteMemory) : HeapReachable ⟨Heap.empty, memory, ∅⟩
  | run {region : HeapRegion} {memory : ByteMemory} {events : List HeapEvent}
      {world : HeapWorld} : Run HeapStep (region.world memory) events world -> HeapReachable world

/-- The free blocks of a row, as nodes of the list. -/
def freeNodes (blocks : List Block) : List (Nat × Nat) :=
  (blocks.filter Block.isFree).map fun block => (block.address, block.size)

section Nodes

variable {left right after : List Block} {block : Block}

@[simp] theorem freeNodes_append :
    freeNodes (left ++ right) = freeNodes left ++ freeNodes right := by
  simp [freeNodes]

theorem freeNodes_cons_of_free (free : block.isFree = true) :
    freeNodes (block :: after) = (block.address, block.size) :: freeNodes after := by
  simp [freeNodes, free]

theorem freeNodes_cons_of_live (live : block.isFree = false) :
    freeNodes (block :: after) = freeNodes after := by
  simp [freeNodes, live]

theorem freeNodes_addresses : (freeNodes left).map Prod.fst = freeAddresses left := by
  simp [freeNodes, freeAddresses, Function.comp_def]

theorem mem_freeNodes {node : Nat × Nat} : node ∈ freeNodes left ↔
    Exists fun block => block ∈ left ∧ block.isFree = true ∧
      (block.address, block.size) = node := by
  simp [freeNodes, and_assoc]

/-- What is carved from a block whose size and the request are multiples of eight:
exactly the bytes that are needed, and the rest if there is any. -/
theorem carve_exact {needed : Nat} (request : Nat) (sized : block.Sized) (aligned : 8 ∣ needed)
    (fits : needed ≤ block.size) :
    block.carve needed request = ⟨block.address, needed, some request⟩ ::
      if needed < block.size then [⟨block.address + needed, block.size - needed, none⟩] else [] := by
  unfold Block.carve
  split
  · rename_i room
    unfold headerSize at room
    rw [if_pos (by omega)]
  · rename_i tight
    have same := HeapShape.size_eq_needed sized aligned fits tight
    rw [if_neg (by omega), same]

end Nodes

theorem HeapWorld.FreeList.unique {world : HeapWorld} {nodes others : List (Nat × Nat)}
    (list : world.FreeList nodes) (list' : world.FreeList others) : nodes = others := by
  have sizes : forall {nodes : List (Nat × Nat)}, world.FreeList nodes ->
      (nodes.map Prod.fst).map (fun node => (node, sizeAt world.memory node)) = nodes := by
    intro nodes list
    have same : nodes.map ((fun node => (node, sizeAt world.memory node)) ∘ Prod.fst) =
        nodes.map id :=
      List.map_congr_left (fun node member => Prod.ext rfl (list.2 node member))
    rw [List.map_map, same, List.map_id]
  rw [← sizes list, ← sizes list', list.1.unique list'.1]

namespace HeapInvariant

variable {world : HeapWorld} {blocks : List Block}

theorem freeList (invariant : HeapInvariant world blocks) : world.FreeList (freeNodes blocks) := by
  refine ⟨?_, ?_⟩
  · rw [freeNodes_addresses]
    exact invariant.shape.linked
  · intro node member
    rcases mem_freeNodes.mp member with ⟨block, inBlocks, _, rfl⟩
    exact invariant.shape.headers block inBlocks

theorem takenBytes_eq (invariant : HeapInvariant world blocks) :
    world.takenBytes = chosenBytes Block.address Block.size (fun block => !block.isFree) blocks := by
  ext target
  constructor
  · rintro ⟨payload, held, inside⟩
    rcases (invariant.held payload).mp held with ⟨block, member, asked, same⟩
    rw [← same, Nat.add_sub_cancel, invariant.shape.headers block member] at inside
    exact ⟨block, member, by simp [Block.live_of_request asked], inside⟩
  · rintro ⟨block, member, live, inside⟩
    rcases Option.isSome_iff_exists.mp (by simpa [Block.isFree] using live) with ⟨size, asked⟩
    refine ⟨⟨block.address + headerSize, size⟩, ?_, ?_⟩
    · exact (invariant.held _).mpr ⟨block, member, asked, rfl⟩
    · simp only [Nat.add_sub_cancel, invariant.shape.headers block member]
      exact inside

theorem freeBytes_eq (invariant : HeapInvariant world blocks) :
    world.freeBytes = chosenBytes Block.address Block.size Block.isFree blocks := by
  rw [HeapWorld.freeBytes, invariant.takenBytes_eq, invariant.shape.tiles.diff_chosenBytes]

/-- The maximal runs of free bytes are the free blocks, because no two free blocks
touch. -/
theorem maximalRun_iff (invariant : HeapInvariant world blocks) {low high : Nat} :
    MaximalRun world.freeBytes low high ↔ Exists fun block => block ∈ blocks ∧
      block.isFree = true ∧ block.address = low ∧ block.address + block.size = high := by
  rw [invariant.freeBytes_eq]
  refine invariant.shape.tiles.maximalRun_iff ?_ invariant.coalesced
  intro block member
  exact Nat.lt_of_lt_of_le (by decide) (invariant.shape.sized block member).2

end HeapInvariant

/-- A maximal run of the set that has room for a number of bytes, and the lowest
such. -/
structure LowestRun (members : Set Nat) (needed low high : Nat) : Prop where
  run : MaximalRun members low high
  room : low + needed ≤ high
  lowest : forall otherLow otherHigh, MaximalRun members otherLow otherHigh ->
    otherLow + needed ≤ otherHigh -> low ≤ otherLow

/-- What is left of a run, as nodes of the free list. -/
def leftOver (low high : Nat) : List (Nat × Nat) :=
  if low < high then [(low, high - low)] else []

/-- The answer to a request: null for one of five reasons, and then nothing has
changed; or the front of the lowest run of free bytes that is long enough. -/
structure FirstFitAnswer (world : HeapWorld) (layout : Layout) (result : Nat) (next : HeapWorld) :
    Prop where
  refuses : result = null ↔ world.heap.isReady = false ∨ layout.size = 0 ∨ 8 < layout.align ∨
    2 ^ 32 ≤ blockSize layout.size ∨
    forall low high, MaximalRun world.freeBytes low high -> high < low + blockSize layout.size
  unchanged : result = null -> next = world
  places : result ≠ null -> Exists fun low => Exists fun high =>
    LowestRun world.freeBytes (blockSize layout.size) low high ∧ result = low + headerSize ∧
    next.takenBytes = world.takenBytes ∪ Set.Ico low (low + blockSize layout.size) ∧
    Exists fun early => Exists fun late =>
      world.FreeList (early ++ (low, high - low) :: late) ∧
      next.FreeList (early ++ (leftOver (low + blockSize layout.size) high ++ late))

namespace HeapInvariant

variable {world : HeapWorld} {before after : List Block} {block : Block}

/-- The first free block of a row that is large enough is the lowest run that is
long enough. -/
theorem lowestRun (invariant : HeapInvariant world (before ++ block :: after)) {needed : Nat}
    (small : forall other, other ∈ before -> other.isFree = true -> other.size < needed)
    (free : block.isFree = true) (fits : needed ≤ block.size) :
    LowestRun world.freeBytes needed block.address (block.address + block.size) := by
  refine ⟨invariant.maximalRun_iff.mpr ⟨block, by simp, free, rfl, rfl⟩, by omega, ?_⟩
  intro otherLow otherHigh run room
  rcases invariant.maximalRun_iff.mp run with ⟨other, member, otherFree, rfl, rfl⟩
  rcases List.mem_append.mp member with early | late
  · exact absurd (small other early otherFree) (by omega)
  · rcases List.mem_cons.mp late with rfl | later
    · exact Nat.le_refl _
    · exact Nat.le_trans (Nat.le_add_right _ _) (invariant.shape.tiles_around.2.bounds later).1

theorem takenBytes_carve {next : HeapWorld} {needed request : Nat}
    (invariant : HeapInvariant world (before ++ block :: after)) (free : block.isFree = true)
    (aligned : 8 ∣ needed) (fits : needed ≤ block.size)
    (kept : HeapInvariant next (before ++ (block.carve needed request ++ after))) :
    next.takenBytes = world.takenBytes ∪ Set.Ico block.address (block.address + needed) := by
  have sized := invariant.shape.sized block (by simp)
  have tail : chosenBytes Block.address Block.size (fun block => !block.isFree)
      ((if needed < block.size then [⟨block.address + needed, block.size - needed, none⟩] else []) ++
        after) = chosenBytes Block.address Block.size (fun block => !block.isFree) after := by
    split
    · exact chosenBytes_cons_of_not rfl
    · rfl
  rw [kept.takenBytes_eq, invariant.takenBytes_eq, carve_exact request sized aligned fits,
    chosenBytes_append, List.cons_append, chosenBytes_cons_of_chosen rfl, tail, chosenBytes_append,
    chosenBytes_cons_of_not (by simp [free])]
  rw [Set.union_assoc, Set.union_comm (chosenBytes _ _ _ after)]

theorem freeNodes_carve {needed request : Nat}
    (invariant : HeapInvariant world (before ++ block :: after)) (aligned : 8 ∣ needed)
    (fits : needed ≤ block.size) :
    freeNodes (before ++ (block.carve needed request ++ after)) =
      freeNodes before ++ (leftOver (block.address + needed) (block.address + block.size) ++
        freeNodes after) := by
  have sized := invariant.shape.sized block (by simp)
  rw [carve_exact request sized aligned fits, freeNodes_append, List.cons_append,
    freeNodes_cons_of_live rfl, leftOver]
  split
  · rw [if_pos (by omega), List.singleton_append, freeNodes_cons_of_free rfl]
    simp only [List.singleton_append]
    congr 3
    omega
  · rw [if_neg (by omega)]
    rfl

/-- Every answer of `allocate` is the first fit among the runs of free bytes. -/
theorem firstFitAnswer {blocks : List Block} (invariant : HeapInvariant world blocks)
    {layout : Layout} {result : Nat} {next : HeapWorld}
    (taken : HeapStep world (.allocate layout result) next) :
    FirstFitAnswer world layout result next := by
  cases taken with
  | @allocate _ _ answer call =>
      rcases invariant.allocate_firstFit call with ⟨refused, reason⟩ |
        ⟨⟨ready, positive, lenient⟩, needed, before, block, after, sized, rfl, small, free, fits, took⟩
      · subst refused
        refine ⟨iff_of_true rfl ?_, fun _ => rfl, fun real => absurd rfl real⟩
        refine reason.imp_right (Or.imp_right (Or.imp_right ?_))
        rintro (overflow | ⟨needed, sized, tooSmall⟩)
        · exact Or.inl (alignedBlockSize_eq_none_iff.mp overflow)
        · rcases alignedBlockSize_eq_some_iff.mp sized with ⟨rfl, _⟩
          refine Or.inr ?_
          intro low high run
          rcases invariant.maximalRun_iff.mp run with ⟨block, member, free, rfl, rfl⟩
          exact Nat.add_lt_add_left (tooSmall block member free) _
      · rcases alignedBlockSize_eq_some_iff.mp sized with ⟨rfl, bounded⟩
        have aligned := (alignedBlockSize_eq_some sized).1
        have lowest := invariant.lowestRun small free fits
        rcases invariant.carve free sized fits took with ⟨same, kept, _⟩
        have real : answer.1 ≠ null := by
          rw [same]
          exact Nat.succ_ne_zero _
        refine ⟨iff_of_false real ?_, fun isNull => absurd isNull real, fun _ => ?_⟩
        · rintro (notReady | empty | strict | overflow | tooSmall)
          · rw [ready] at notReady
            cases notReady
          · exact positive empty
          · exact Nat.not_le_of_lt strict lenient
          · exact Nat.not_lt_of_le overflow bounded
          · exact Nat.not_lt_of_le lowest.room (tooSmall _ _ lowest.run)
        · refine ⟨block.address, block.address + block.size, lowest, same,
            invariant.takenBytes_carve free aligned fits kept, freeNodes before, freeNodes after,
            ?_, ?_⟩
          · have list := invariant.freeList
            rw [freeNodes_append, freeNodes_cons_of_free free] at list
            rw [Nat.add_sub_cancel_left]
            exact list
          · have list := kept.freeList
            rw [invariant.freeNodes_carve aligned fits] at list
            exact list

end HeapInvariant

theorem Heap.allocate_unready {heap : Heap} (notReady : heap.isReady = false)
    (memory : ByteMemory) (layout : Layout) (fuel : Nat) :
    heap.allocate memory layout fuel = some (null, heap, memory) :=
  if_pos (Or.inl notReady)

/-- Allocation is first fit by address over the free bytes, exactly: in every
reachable state every request is answered, null means that no run of free bytes
could have held the block, and otherwise the block is the front of the lowest run
that could, with the rest of the run left as one free block. -/
theorem heap_first_fit {world : HeapWorld} (reachable : HeapReachable world) (layout : Layout) :
    (Exists fun result => Exists fun next => HeapStep world (.allocate layout result) next) ∧
      forall result next, HeapStep world (.allocate layout result) next ->
        FirstFitAnswer world layout result next := by
  cases reachable with
  | unready memory =>
      have refused := @Heap.allocate_unready Heap.empty rfl memory layout
      refine ⟨⟨_, _, HeapStep.allocate (refused 0)⟩, ?_⟩
      intro result next taken
      cases taken with
      | allocate call =>
          cases (refused _).symm.trans call
          exact ⟨iff_of_true rfl (Or.inl rfl), fun _ => rfl, fun real => absurd rfl real⟩
  | run steps =>
      rcases heapRun_sound steps with ⟨⟨blocks, invariant⟩, _⟩
      refine ⟨?_, fun result next taken => invariant.firstFitAnswer taken⟩
      rcases invariant.allocate_returns layout with ⟨fuel, answer, call⟩
      exact ⟨_, _, HeapStep.allocate call⟩

/-- With 24 free bytes on either side of a live block, a request for eight bytes
goes to the front of the lower run. -/
theorem heap_first_fit_smallRegion :
    FirstFitAnswer gapLeft ⟨8, 8⟩ 0x1008 (gapLeft.afterAllocate ⟨8, 8⟩ 4) :=
  (heap_first_fit (.run gapLeft_run) ⟨8, 8⟩).2 _ _ (HeapWorld.step_allocate (by decide +kernel))

end Memory
end Goatos
